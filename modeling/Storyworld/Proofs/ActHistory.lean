import Mathlib.Order.MinMax
import Storyworld.Proofs.Accepted
import Storyworld.Proofs.Runs

/-!
# The history of acts

The acts reached are an unbroken stretch of the declared ones from the first of the session on, and
the current act is among them (`State.Walked`). It is the last of them, as a save is asked to have
it, unless a gate beat went forward past the act that its gate leads into: the gate enters that act
afterwards, which is a step back (`acts_lead`).
-/

namespace Storyworld

def Catalog.actIds (c : Catalog) : List EntityId := c.acts.toList.map (·.id)

/-- Whether an effect goes forward to an act that comes after the given one. -/
def Effect.goesPast (c : Catalog) (act : EntityId) : Effect → Bool
  | advanceAct a =>
    match c.acts.position? act, c.acts.position? a with
    | some i, some j => i < j
    | _, _ => false
  | _ => false

/-- No gate beat goes forward past the act that its gate leads into. -/
def Catalog.GatesLeadOn (c : Catalog) : Prop :=
  ∀ a ∈ c.acts.toList, ∀ next ∈ c.nextAct? a.id, ∀ b ∈ c.beats.toList, a.gateBeat = some b.id →
    ∀ e ∈ b.effects, e.goesPast c next.id = false

/-- The effects of the gate beat that fires in a step between acts. -/
def Transition.beatEffects (x : Transition) : List Effect :=
  match x.gateBeat with
  | some f => f.effects
  | none => []

/-- The turn steps into an act that its gate beat went forward past. -/
def Played.Overleaps (c : Catalog) (p : Played) : Prop :=
  ∃ x ∈ p.transition?, ∃ e ∈ x.beatEffects, e.goesPast c x.destination = true

/-- The acts reached are those from the first of the session up to the current one, in order. -/
def State.ActsLead (c : Catalog) (s : State) : Prop :=
  s.reachedActs = (c.actsThrough s.act).map (·.id)

instance (c : Catalog) (s : State) : Decidable (s.ActsLead c) := inferInstanceAs (Decidable (_ = _))

/-! ### Places in the order of acts -/

section
variable {c : Catalog} {s t : State} {a : EntityId} {first i j last : Nat}

theorem Catalog.nodup_actIds (c : Catalog) : c.actIds.Nodup := c.acts.nodup

theorem Catalog.position?_eq_some_iff : c.acts.position? a = some i ↔ c.actIds[i]? = some a :=
  ⟨Table.getElem?_of_position?, Table.position?_of_getElem?⟩

theorem Catalog.position?_id {d : Act} (h : c.acts.toList[i]? = some d) :
    c.acts.position? d.id = some i := by
  rw [position?_eq_some_iff, actIds, List.getElem?_map, h]
  rfl

theorem Catalog.lt_length_actIds (h : c.acts.position? a = some i) : i < c.actIds.length :=
  (List.getElem?_eq_some_iff.1 (position?_eq_some_iff.1 h)).1

theorem Catalog.exists_position? (h : c.contains (.act a) = true) :
    ∃ i, c.acts.position? a = some i := by
  obtain ⟨d, hd, hid⟩ := List.any_eq_true.1 (show c.acts.toList.any _ = true from h)
  obtain ⟨i, hi⟩ := List.mem_iff_getElem?.1 (List.mem_map_of_mem (f := (·.id)) hd)
  refine ⟨i, position?_eq_some_iff.2 (hi.trans ?_)⟩
  exact congrArg some (eq_of_beq hid)

theorem Catalog.map_actsThrough (hfirst : c.acts.position? c.initialAct = some first)
    (hlast : c.acts.position? a = some last) :
    (c.actsThrough a).map (·.id) = (c.actIds.take (last + 1)).drop first := by
  unfold actsThrough
  rw [hfirst, hlast, List.map_drop, List.map_take]
  rfl

theorem Catalog.contains_of_mem_actsThrough {x : EntityId}
    (h : x ∈ (c.actsThrough a).map (·.id)) : c.contains (.act x) = true := by
  obtain ⟨d, hd, rfl⟩ := List.mem_map.1 h
  unfold actsThrough at hd
  dsimp only at hd
  split at hd
  · cases hd
  · exact Table.contains_of_mem (List.mem_of_mem_take (List.mem_of_mem_drop hd))

theorem Catalog.mem_stretch_iff (hi : c.acts.position? a = some i) :
    a ∈ (c.actIds.take (last + 1)).drop first ↔ first ≤ i ∧ i ≤ last := by
  have hget := position?_eq_some_iff.1 hi
  have hlt := lt_length_actIds hi
  rw [List.mem_iff_getElem?]
  constructor
  · rintro ⟨k, hk⟩
    rw [List.getElem?_drop] at hk
    obtain ⟨hbound, -⟩ := List.getElem?_eq_some_iff.1 hk
    rw [List.length_take] at hbound
    rw [List.getElem?_take_of_lt (by omega)] at hk
    have hsame := (List.getElem?_inj (by omega) c.nodup_actIds).1 (hk.trans hget.symm)
    omega
  · rintro ⟨hle, hge⟩
    refine ⟨i - first, ?_⟩
    rw [List.getElem?_drop, List.getElem?_take_of_lt (by omega), Nat.add_sub_cancel' hle]
    exact hget

/-! ### The stretch that was walked -/

/-- The current act is the one at `i`, and reached are those from `first` up to `last`. -/
structure State.Walked (c : Catalog) (first : Nat) (s : State) (i last : Nat) : Prop where
  act : c.acts.position? s.act = some i
  reached : s.reachedActs = (c.actIds.take (last + 1)).drop first
  first_le : first ≤ i
  le_last : i ≤ last
  last_lt : last < c.actIds.length

namespace State.Walked

theorem of_eq (h : s.Walked c first i last) (hact : t.act = s.act)
    (hreached : t.reachedActs = s.reachedActs) : t.Walked c first i last :=
  ⟨hact ▸ h.act, hreached ▸ h.reached, h.first_le, h.le_last, h.last_lt⟩

theorem initial (h : c.acts.position? c.initialAct = some first) :
    (State.initial c).Walked c first first first where
  act := h
  reached := by
    have hget := Catalog.position?_eq_some_iff.1 h
    have hlt := Catalog.lt_length_actIds h
    rw [List.take_succ_eq_append_getElem hlt, List.drop_left' (by rw [List.length_take]; omega)]
    rw [List.getElem?_eq_getElem hlt] at hget
    rw [Option.some.inj hget]
    rfl
  first_le := le_rfl
  le_last := le_rfl
  last_lt := Catalog.lt_length_actIds h

/-- Entering an act that is reached, or the next one after those, keeps the stretch unbroken. -/
theorem enterAct (h : s.Walked c first i last) (hj : c.acts.position? a = some j)
    (hfirst : first ≤ j) (hnext : j ≤ last + 1) : (s.enterAct a).Walked c first j (max last j) := by
  have hlt := Catalog.lt_length_actIds hj
  have hmem : a ∈ s.reachedActs ↔ j ≤ last := by
    rw [h.reached, Catalog.mem_stretch_iff hj]
    exact and_iff_right hfirst
  refine ⟨hj, ?_, hfirst, le_max_right _ _, max_lt h.last_lt hlt⟩
  unfold State.enterAct
  simp only [List.contains_iff_mem, hmem]
  split
  · rename_i hle
    rw [max_eq_left hle]
    exact h.reached
  · rename_i hgt
    obtain rfl : j = last + 1 := by omega
    have hget : c.actIds[last + 1] = a := by
      have hat := Catalog.position?_eq_some_iff.1 hj
      rwa [List.getElem?_eq_getElem hlt, Option.some.injEq] at hat
    have hlast := h.last_lt
    have hle := h.first_le.trans h.le_last
    rw [max_eq_right (by omega), List.take_succ_eq_append_getElem hlt, hget, h.reached,
      List.drop_append_of_le_length (by rw [List.length_take]; omega)]

theorem stay (h : s.Walked c first i last) : s.Walked c first i (max last i) := by
  rw [max_eq_left h.le_last]
  exact h

theorem enterActs (h : s.Walked c first i last) {n : Nat} (hn : i + n < c.acts.toList.length) :
    (((c.acts.toList.drop (i + 1)).take n).foldl (fun s d => s.enterAct d.id) s).Walked c first
      (i + n) (max last (i + n)) := by
  -- By induction on how many are entered: the next one is never more than one past the stretch.
  induction n with
  | zero => exact h.stay
  | succ n ih =>
    have hprev := ih (by omega)
    have hbound : n < (c.acts.toList.drop (i + 1)).length := by
      rw [List.length_drop]
      omega
    have hget : c.acts.toList[i + 1 + n]? = some (c.acts.toList.drop (i + 1))[n] := by
      rw [← List.getElem?_drop, List.getElem?_eq_getElem hbound]
    have hplace := Catalog.position?_id hget
    rw [show i + 1 + n = i + (n + 1) by omega] at hplace
    have hfirst := h.first_le
    have hnext := hprev.enterAct hplace (by omega) (by omega)
    have hmax : max (max last (i + n)) (i + (n + 1)) = max last (i + (n + 1)) := by omega
    rw [List.take_succ_eq_append_getElem hbound, List.foldl_append]
    rwa [hmax] at hnext

theorem advanceTo (h : s.Walked c first i last) (hj : c.acts.position? a = some j) :
    (s.advanceTo c a).Walked c first (max i j) (max last j) := by
  have hlt := Catalog.lt_length_actIds hj
  rw [Catalog.actIds, List.length_map] at hlt
  have hi := h.le_last.trans_lt h.last_lt
  rw [Catalog.actIds, List.length_map] at hi
  have hentered := h.enterActs (n := j - i) (by omega)
  have hcurrent : i + (j - i) = max i j := by omega
  have hfar : max last (max i j) = max last j := by
    have := h.le_last
    omega
  unfold State.advanceTo
  rw [h.act, hj]
  rwa [hcurrent, hfar] at hentered

end State.Walked

/-- The place in the order of acts that an effect leads to from place `i`. -/
def Effect.reach (c : Catalog) (i : Nat) : Effect → Nat
  | advanceAct a =>
    match c.acts.position? a with
    | some j => max i j
    | none => i
  | _ => i

theorem Effect.reach_of_ne_advanceAct {e : Effect} (he : ∀ a, e ≠ .advanceAct a) :
    e.reach c i = i := by
  cases e with
  | advanceAct a => exact absurd rfl (he a)
  | _ => rfl

theorem Effect.le_reach (c : Catalog) (i : Nat) (e : Effect) : i ≤ e.reach c i := by
  unfold reach
  split
  · split
    · exact le_max_left _ _
    · exact le_rfl
  · exact le_rfl

theorem Effect.le_foldl_reach (c : Catalog) (i : Nat) (es : List Effect) :
    i ≤ es.foldl (Effect.reach c) i := by
  induction es generalizing i with
  | nil => exact le_rfl
  | cons e es ih => exact (le_reach c i e).trans (ih _)

/-- Effects lead as far as a place exactly if one of them goes forward that far. -/
theorem Effect.le_foldl_reach_iff {es : List Effect} :
    j ≤ es.foldl (Effect.reach c) i ↔
      j ≤ i ∨ ∃ a k, .advanceAct a ∈ es ∧ c.acts.position? a = some k ∧ j ≤ k := by
  induction es generalizing i with
  | nil => simp
  | cons e es ih =>
    have hstep : j ≤ e.reach c i ↔
        j ≤ i ∨ ∃ a k, .advanceAct a = e ∧ c.acts.position? a = some k ∧ j ≤ k := by
      cases e with
      | advanceAct x => cases hx : c.acts.position? x <;> simp [reach, hx]
      | _ => simp [reach]
    rw [List.foldl_cons, ih, hstep, or_assoc]
    simp only [List.mem_cons, or_and_right, exists_or]

theorem Effect.goesPast_iff {e : Effect} (hj : c.acts.position? a = some j) :
    e.goesPast c a = true ↔ ∃ x k, .advanceAct x = e ∧ c.acts.position? x = some k ∧ j < k := by
  cases e with
  | advanceAct x => cases hk : c.acts.position? x <;> simp [goesPast, hj, hk]
  | _ => simp [goesPast]

theorem Effect.lt_foldl_reach_iff (hj : c.acts.position? a = some j) {es : List Effect} :
    j < es.foldl (Effect.reach c) i ↔ j < i ∨ ∃ e ∈ es, e.goesPast c a = true := by
  refine le_foldl_reach_iff.trans (or_congr_right ⟨?_, ?_⟩)
  · rintro ⟨x, k, hmem, hk, hlt⟩
    exact ⟨_, hmem, (goesPast_iff hj).2 ⟨x, k, rfl, hk, hlt⟩⟩
  · rintro ⟨e, he, hpast⟩
    obtain ⟨x, k, rfl, hk, hlt⟩ := (goesPast_iff hj).1 hpast
    exact ⟨x, k, he, hk, hlt⟩

namespace State.Walked

theorem change (h : s.Walked c first i last) (e : Effect) :
    (s.change c e).Walked c first (e.reach c i) (max last (e.reach c i)) := by
  obtain ⟨a, rfl⟩ | he := e.eq_advanceAct_or_ne
  · show (s.advanceTo c a).Walked c first (Effect.reach c i (.advanceAct a)) _
    unfold Effect.reach
    dsimp only
    cases hj : c.acts.position? a with
    | none =>
      have hstays : s.advanceTo c a = s := by
        unfold State.advanceTo
        rw [h.act, hj]
      rw [hstays]
      exact h.stay
    | some j =>
      have hle := h.le_last
      have hmax : max last (max i j) = max last j := by omega
      dsimp only
      rw [hmax]
      exact h.advanceTo hj
  · obtain ⟨_, _, _, hsame⟩ := s.exists_change_eq_of_ne_advanceAct (c := c) he
    rw [Effect.reach_of_ne_advanceAct he]
    exact h.stay.of_eq (by rw [hsame]) (by rw [hsame])

theorem applyAll {es : List Effect} (h : s.Walked c first i last) (hes : s.applyAll c es = .ok t) :
    t.Walked c first (es.foldl (Effect.reach c) i) (max last (es.foldl (Effect.reach c) i)) := by
  induction es generalizing s i last with
  | nil =>
    cases hes
    exact h.stay
  | cons e es ih =>
    obtain ⟨m, he, hes⟩ := State.applyAll_cons_eq_ok_iff.1 hes
    obtain ⟨-, -, rfl⟩ := State.apply_eq_ok_iff.1 he
    have hrest := ih (h.change e) hes
    have hle := Effect.le_foldl_reach c (e.reach c i) es
    rw [List.foldl_cons]
    rwa [max_assoc, max_eq_right hle] at hrest

theorem actsLead_iff (h : s.Walked c first i last)
    (hfirst : c.acts.position? c.initialAct = some first) : s.ActsLead c ↔ i = last := by
  unfold State.ActsLead
  rw [h.reached, Catalog.map_actsThrough hfirst h.act]
  constructor
  · intro heq
    have hlen := congrArg List.length heq
    simp only [List.length_drop, List.length_take] at hlen
    have := h.first_le
    have := h.le_last
    have := h.last_lt
    omega
  · rintro rfl
    rfl

theorem getLast?_reachedActs (h : s.Walked c first i last) :
    s.reachedActs.getLast? = c.actIds[last]? := by
  have hle := h.first_le.trans h.le_last
  have hlt := h.last_lt
  rw [h.reached, List.getLast?_drop, if_neg (by rw [List.length_take]; omega), List.getLast?_take,
    if_neg (by omega), Nat.add_sub_cancel]
  rw [List.getElem?_eq_getElem hlt]
  rfl

theorem getLast?_eq_act_iff (h : s.Walked c first i last) :
    s.reachedActs.getLast? = some s.act ↔ i = last := by
  rw [h.getLast?_reachedActs, ← Catalog.position?_eq_some_iff, h.act, Option.some.injEq]

theorem exists_actsThrough (h : s.Walked c first i last)
    (hfirst : c.acts.position? c.initialAct = some first) :
    ∃ far, s.reachedActs = (c.actsThrough far).map (·.id) ∧ s.act ∈ s.reachedActs := by
  obtain ⟨far, hfar⟩ : ∃ far, c.actIds[last]? = some far :=
    ⟨_, List.getElem?_eq_getElem h.last_lt⟩
  have hthrough := Catalog.map_actsThrough hfirst (Catalog.position?_eq_some_iff.2 hfar)
  refine ⟨far, h.reached.trans hthrough.symm, ?_⟩
  rw [h.reached, Catalog.mem_stretch_iff h.act]
  exact ⟨h.first_le, h.le_last⟩

end State.Walked

/-! ### Turns -/

/-- The step out of the current act applies the effects of its gate beat, if that fires, and enters
the act after it. -/
theorem gate_of_passGate {x : Transition} (h : s.passGate c = .ok (t, some x)) :
    ∃ current next, c.acts.get? s.act = some current ∧ c.nextAct? current.id = some next ∧
      x.destination = next.id ∧
      (x.beatEffects = [] ∨
        ∃ b ∈ c.beats.toList, current.gateBeat = some b.id ∧ x.beatEffects = b.effects) ∧
      ∃ m firedBeats, s.applyAll c x.beatEffects = .ok m ∧
        t = { m with firedBeats }.enterAct next.id := by
  rcases passGate_cases h with ⟨-, hnone⟩ | ⟨current, next, beat, hopen, hpass, hbeat, hends⟩
  · cases hnone
  · obtain ⟨hcurrent, hnext, -⟩ := of_openGate? hopen
    obtain ⟨-, hdestination⟩ := Prod.mk.inj (Option.some.inj hends)
    have hbeat : x.gateBeat = beat := hbeat
    refine ⟨current, next, hcurrent, hnext, hdestination, ?_⟩
    unfold Transition.beatEffects
    rw [hbeat]
    cases hpass with
    | plain => exact ⟨.inl rfl, s, s.firedBeats, rfl, rfl⟩
    | @beaten b after hpending hfire =>
      obtain ⟨hgate, hb, -⟩ := of_pendingGateBeat? hpending
      obtain ⟨m, hes, rfl⟩ := State.fire_eq_ok_iff.1 hfire
      exact ⟨.inr ⟨b, hb, hgate, rfl⟩, m, _, hes, by rw [State.markFired_eq]⟩

namespace State.Walked

/-- The step out of an act ends in the act after it, wherever its gate beat went. -/
theorem passGate {x : Transition} (h : s.Walked c first i last)
    (hpass : s.passGate c = .ok (t, some x)) :
    c.acts.position? x.destination = some (i + 1) ∧ t.Walked c first (i + 1)
      (max (max last (x.beatEffects.foldl (Effect.reach c) i)) (i + 1)) := by
  obtain ⟨current, next, hcurrent, hnext, hdestination, -, m, fired, hes, rfl⟩ :=
    gate_of_passGate hpass
  have hplace : c.acts.position? next.id = some (i + 1) := by
    obtain ⟨k, hk, hget⟩ := Option.bind_eq_some_iff.1 hnext
    have hid : current.id = s.act := Table.id_of_get? hcurrent
    rw [hid, h.act] at hk
    cases hk
    exact Catalog.position?_id hget
  -- The beat goes forward only, so the act at `i + 1` is no more than one past the stretch.
  have hforward := Effect.le_foldl_reach c i x.beatEffects
  have hmarked := (h.applyAll hes).of_eq (t := { m with firedBeats := fired }) rfl rfl
  have hfirst := h.first_le
  rw [hdestination]
  exact ⟨hplace, hmarked.enterAct hplace (by omega) (by omega)⟩

end State.Walked

theorem Landing.walked {p : Plan} {done : Commit} {acted beaten passed : State}
    (h : Landing c s p done acted beaten passed) (hs : s.Walked c first i last) :
    ∃ j, i ≤ j ∧ (beaten.recordSpokes c).Walked c first j (max last j) := by
  have heffect : ∀ e m m', (∃ j, i ≤ j ∧ State.Walked c first m j (max last j)) →
      m.apply c e = .ok m' → ∃ j, i ≤ j ∧ m'.Walked c first j (max last j) := by
    rintro e m m' ⟨j, hj, hm⟩ he
    obtain ⟨-, -, rfl⟩ := State.apply_eq_ok_iff.1 he
    have hforward := Effect.le_reach c j e
    have hnext := hm.change e
    rw [max_assoc, max_eq_right hforward] at hnext
    exact ⟨_, hj.trans hforward, hnext⟩
  obtain ⟨hact, hgate⟩ := h.keeps_to_gate heffect fun _ _ _ _ ⟨j, hj, hm⟩ =>
    ⟨j, hj, hm.of_eq rfl rfl⟩
  obtain ⟨j, hj, hacted⟩ := hact ⟨i, le_rfl, hs.stay⟩
  obtain ⟨_, hmark⟩ := State.exists_markRun_eq c acted p.interaction
  refine hgate ⟨j, hj, ?_⟩
  rw [hmark]
  exact hacted.of_eq rfl rfl

theorem Line.not_overleaps_of_none {l : Line} (h : l.landing? c s = none) :
    ¬(l.play c s).Overleaps c := by
  rintro ⟨x, hx, e, he, -⟩
  obtain ⟨-, hbeats, -⟩ := Line.play_of_none h
  rw [Played.beats_eq, Option.mem_def.1 hx, List.append_eq_nil_iff] at hbeats
  have hnone : x.gateBeat = none := by simpa using hbeats.2
  unfold Transition.beatEffects at he
  rw [hnone] at he
  cases he

/-- A turn walks on, and it ends at the end of the stretch, where it began, exactly if it does not
step into an act that it has gone past. -/
theorem Line.walked (l : Line) (h : s.Walked c first i last) :
    ∃ j far, (l.play c s).state.Walked c first j far ∧
      (i = last → (j = far ↔ ¬(l.play c s).Overleaps c)) := by
  cases hl : l.landing? c s with
  | none =>
    refine ⟨i, last, ?_, fun hlast => iff_of_true hlast (not_overleaps_of_none hl)⟩
    rw [(Line.play_of_none hl).1]
    exact h.of_eq rfl rfl
  | some y =>
    obtain ⟨p, done⟩ := y
    obtain ⟨acted, beaten, passed, hstages⟩ := (Line.lands hl).stages
    obtain ⟨j, hj, hgate⟩ := hstages.walked (h.of_eq rfl rfl)
    obtain ⟨_, hwon⟩ := State.exists_recordVictory_eq hstages.win
    have hleft : ∀ {k far}, passed.Walked c first k far →
        (l.play c s).state.Walked c first k far := by
      intro k far hpassed
      rw [(Line.play_of_some hl).1, hwon]
      exact hpassed.of_eq rfl rfl
    unfold Played.Overleaps
    rw [Line.transition?_of_some hl]
    cases hstep : done.transition with
    | none =>
      have hsame : passed = beaten.recordSpokes c := by
        rcases passGate_cases hstages.pass with ⟨hsame, -⟩ | ⟨_, _, _, -, -, -, hends⟩
        · exact hsame
        · rw [hstep] at hends
          cases hends
      refine ⟨j, max last j, hleft (hsame ▸ hgate), fun hlast => iff_of_true (by omega) ?_⟩
      rintro ⟨x, hx, -⟩
      cases hx
    | some x =>
      have hpass := hstages.pass
      rw [hstep] at hpass
      obtain ⟨hplace, hpassed⟩ := hgate.passGate hpass
      refine ⟨_, _, hleft hpassed, fun hlast => ?_⟩
      -- The step ends at `j + 1`, the end of the stretch unless the gate beat reached further.
      have hpast : j + 1 < x.beatEffects.foldl (Effect.reach c) j ↔
          ∃ e ∈ x.beatEffects, e.goesPast c x.destination = true := by
        rw [Effect.lt_foldl_reach_iff hplace]
        exact or_iff_right (by omega)
      simp only [Option.mem_some_iff, exists_eq_left']
      rw [← hpast]
      omega

theorem Catalog.GatesLeadOn.not_overleaps (h : c.GatesLeadOn) (l : Line) (s : State) :
    ¬(l.play c s).Overleaps c := by
  cases hl : l.landing? c s with
  | none => exact Line.not_overleaps_of_none hl
  | some y =>
    obtain ⟨p, done⟩ := y
    obtain ⟨acted, beaten, passed, hstages⟩ := (Line.lands hl).stages
    rintro ⟨x, hx, e, he, hpast⟩
    rw [Line.transition?_of_some hl] at hx
    have hpass := hstages.pass
    rw [Option.mem_def.1 hx] at hpass
    obtain ⟨current, next, hcurrent, hnext, hdestination, heffects, -⟩ := gate_of_passGate hpass
    rcases heffects with hnil | ⟨b, hb, hgate, heq⟩
    · rw [hnil] at he
      cases he
    · rw [heq] at he
      rw [hdestination, h current (Table.mem_of_get? hcurrent) next hnext b hb hgate e he] at hpast
      cases hpast

/-! ### Runs -/

theorem Reachable.walked (h : Reachable c s)
    (hfirst : c.acts.position? c.initialAct = some first) :
    ∃ i last, s.Walked c first i last := by
  induction h with
  | refl => exact ⟨first, first, .initial hfirst⟩
  | turn _ l ih =>
    obtain ⟨i, last, hwalked⟩ := ih
    obtain ⟨j, far, hnext, -⟩ := l.walked hwalked
    exact ⟨j, far, hnext⟩

theorem State.prefix_reachedActs_enterAct (s : State) (x : EntityId) :
    s.reachedActs <+: (s.enterAct x).reachedActs := by
  unfold enterAct
  dsimp only
  split
  · exact List.prefix_rfl
  · exact List.prefix_append _ _

theorem State.prefix_reachedActs_change (s : State) (e : Effect) :
    s.reachedActs <+: (s.change c e).reachedActs := by
  by_cases he : ∃ x, e = .advanceAct x
  · obtain ⟨x, rfl⟩ := he
    show s.reachedActs <+: (s.advanceTo c x).reachedActs
    cases hi : c.acts.position? s.act with
    | none => simp [advanceTo, hi]
    | some i =>
      cases hj : c.acts.position? x with
      | none => simp [advanceTo, hi, hj]
      | some j =>
        rw [advanceTo_eq x hi hj]
        split
        · exact List.prefix_append _ _
        · exact List.prefix_rfl
  · obtain ⟨_, _, _, hsame⟩ :=
      s.exists_change_eq_of_ne_advanceAct (c := c) fun x hx => he ⟨x, hx⟩
    have hacts : (s.change c e).reachedActs = s.reachedActs := by rw [hsame]
    exact hacts ▸ List.prefix_rfl

theorem Kept.prefix_reachedActs (c : Catalog) (xs : List EntityId) :
    Kept c (xs <+: ·.reachedActs) := by
  intro s t hs h
  cases h with
  | applied e h =>
    obtain ⟨-, -, rfl⟩ := State.apply_eq_ok_iff.1 h
    exact hs.trans (s.prefix_reachedActs_change e)
  | fired b =>
    rw [State.markFired_eq]
    exact hs
  | entered d => exact hs.trans (s.prefix_reachedActs_enterAct d.id)
  | counted | used | latched | recorded | won => exact hs

/-- A history that leads to the current act begins in a declared one. -/
theorem State.ActsLead.initialAct_declared (h : s.ActsLead c) (hs : Reachable c s) :
    c.contains (.act c.initialAct) = true := by
  have hmem : c.initialAct ∈ s.reachedActs :=
    ((Kept.prefix_reachedActs c [c.initialAct]).reaches List.prefix_rfl hs).subset
      List.mem_cons_self
  rw [h] at hmem
  exact Catalog.contains_of_mem_actsThrough hmem

end

/-- How the acts reached lead to the current one. Where the first act is declared they are those
through some act, with the current one among them. They lead to the current one exactly if it is the
last that was reached. A turn keeps that exactly if it does not step into an act that its gate beat
went forward past, which cannot be where gates lead on. -/
theorem acts_lead {c : Catalog} (hc : c.Accepted) {s : State} (hs : Reachable c s) :
    (c.contains (.act c.initialAct) = true →
      ∃ far, s.reachedActs = (c.actsThrough far).map (·.id) ∧ s.act ∈ s.reachedActs) ∧
    (s.ActsLead c ↔
      c.contains (.act c.initialAct) = true ∧ s.reachedActs.getLast? = some s.act) ∧
    (s.ActsLead c → ∀ l : Line,
      (l.play c s).state.ActsLead c ↔ ¬(l.play c s).Overleaps c) ∧
    (c.start.location ≠ "" → c.GatesLeadOn → s.ActsLead c) := by
  have hplace : c.contains (.act c.initialAct) = true →
      ∃ first i last, c.acts.position? c.initialAct = some first ∧ s.Walked c first i last := by
    intro hdeclared
    obtain ⟨first, hfirst⟩ := Catalog.exists_position? hdeclared
    obtain ⟨i, last, hwalked⟩ := hs.walked hfirst
    exact ⟨first, i, last, hfirst, hwalked⟩
  refine ⟨fun hdeclared => ?_, ⟨fun hlead => ?_, ?_⟩, fun hlead l => ?_, fun hstart hgates => ?_⟩
  · obtain ⟨first, i, last, hfirst, hwalked⟩ := hplace hdeclared
    exact hwalked.exists_actsThrough hfirst
  · have hdeclared := hlead.initialAct_declared hs
    obtain ⟨first, i, last, hfirst, hwalked⟩ := hplace hdeclared
    exact ⟨hdeclared, hwalked.getLast?_eq_act_iff.2 ((hwalked.actsLead_iff hfirst).1 hlead)⟩
  · rintro ⟨hdeclared, hlast⟩
    obtain ⟨first, i, last, hfirst, hwalked⟩ := hplace hdeclared
    exact (hwalked.actsLead_iff hfirst).2 (hwalked.getLast?_eq_act_iff.1 hlast)
  · obtain ⟨first, i, last, hfirst, hwalked⟩ := hplace (hlead.initialAct_declared hs)
    obtain ⟨j, far, hnext, hends⟩ := l.walked hwalked
    exact (hnext.actsLead_iff hfirst).trans (hends ((hwalked.actsLead_iff hfirst).1 hlead))
  · obtain ⟨first, hfirst⟩ := Catalog.exists_position? (hc.initialAct_declared hstart)
    clear hplace
    induction hs with
    | refl => exact ((State.Walked.initial hfirst).actsLead_iff hfirst).2 rfl
    | turn hreach l ih =>
      obtain ⟨i, last, hwalked⟩ := Reachable.walked hreach hfirst
      obtain ⟨j, far, hnext, hends⟩ := l.walked hwalked
      have hlead := (hwalked.actsLead_iff hfirst).1 ih
      exact (hnext.actsLead_iff hfirst).2 ((hends hlead).2 (hgates.not_overleaps l _))

/-- A ferry that crosses at dawn. The beat at the gate of the dawn goes forward to an act. -/
def ferryDoc (act : EntityId) : WorldDocument where
  world := some { title := "Ferry" }
  start := some { location := "quay" }
  locations := [{ id := "quay", name := "Quay" }]
  beats := [{ id := "crossing", effects := [.advanceAct act] }]
  acts := [
    { id := "dawn", locations := ["quay"], gate := some .always, gateBeat := some "crossing" },
    { id := "noon" }, { id := "dusk" }]

def ferry (act : EntityId) : Catalog := .draft (ferryDoc act)

/-- A quay at an hour that is not declared, which nobody looks at in a start without location. -/
def undatedDoc : WorldDocument where
  world := some { title := "Quay" }
  start := some { location := "", act := some "dusk" }
  locations := [{ id := "quay", name := "Quay" }]
  acts := [{ id := "dawn", locations := ["quay"] }]

def undated : Catalog := .draft undatedDoc

theorem ferry_noon_accepted : (ferry "noon").Accepted :=
  ⟨ferryDoc "noon", Catalog.ofDocument_eq_ok_iff.2 ⟨by decide, rfl⟩⟩

theorem ferry_dusk_accepted : (ferry "dusk").Accepted :=
  ⟨ferryDoc "dusk", Catalog.ofDocument_eq_ok_iff.2 ⟨by decide, rfl⟩⟩

theorem undated_accepted : undated.Accepted :=
  ⟨undatedDoc, Catalog.ofDocument_eq_ok_iff.2 ⟨by decide, rfl⟩⟩

/-- The ferry that crosses to the noon arrives there, after dawn. -/
theorem ferry_arrives_at_noon :
    let s := (Line.play (ferry "noon") { input := "look" } (.initial (ferry "noon"))).state
    (ferry "noon").Accepted ∧ Reachable (ferry "noon") s ∧ s.ActsLead (ferry "noon") ∧
      s.reachedActs = ["dawn", "noon"] := by
  intro s
  have hs : Reachable (ferry "noon") s := .turn .refl { input := "look" }
  have hgates : (ferry "noon").GatesLeadOn := by
    unfold Catalog.GatesLeadOn
    decide
  have hlead := (acts_lead ferry_noon_accepted hs).2.2.2 (by decide) hgates
  exact ⟨ferry_noon_accepted, hs, hlead, by decide +kernel⟩

/-- The ferry that crosses to the dusk is back at noon with the dusk behind it. -/
theorem ferry_back_at_noon :
    ¬∀ (c : Catalog) (s : State), c.Accepted → Reachable c s → s.ActsLead c := by
  intro h
  have hlead := h (ferry "dusk") _ ferry_dusk_accepted (.turn .refl { input := "look" })
  exact absurd hlead (by decide +kernel)

example : undated.Accepted ∧ ¬(State.initial undated).ActsLead undated :=
  ⟨undated_accepted, by decide⟩

end Storyworld
