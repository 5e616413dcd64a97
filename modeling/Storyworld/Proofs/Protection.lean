import Storyworld.Proofs.Critical

/-!
# Protection

Before a plan is approved its effects are gone through with a list of what is carried, to see that
none of them loses a critical item. The list is not the inventory: nothing that is removed or
destroyed leaves it. But a critical item is on the list exactly while it is carried, up to the first
effect that loses one (`mem_track_iff`). So the check objects exactly to the effects that lose a
critical item when their turn comes (`criticalLoss?_eq_none_iff`).
-/

namespace Storyworld

/-! ### Effects -/

namespace Effect

/-- The item that an effect takes from a player who carries these: the one that it takes out of
play, or that it lays down or hands over while it is carried. -/
def lost? (carried : List EntityId) : Effect → Option EntityId
  | removeItem item | destroyItem item => some item
  | placeItem item _ | handItem item _ => if carried.contains item then some item else none
  | _ => none

def track (carried : List EntityId) : Effect → List EntityId
  | placeItem item _ | handItem item _ => carried.filter (· != item)
  | giveItem item => carried.insert item
  | _ => carried

variable {e : Effect} {i : EntityId} {carried inventory : List EntityId}

theorem lost?_eq_some_iff :
    e.lost? carried = some i ↔ (e = .removeItem i ∨ e = .destroyItem i) ∨
      (((∃ l, e = .placeItem i l) ∨ ∃ p, e = .handItem i p) ∧ i ∈ carried) := by
  cases e with
  | placeItem item place | handItem item holder =>
    by_cases heq : item = i
    · simp [lost?, heq]
    · simp [lost?, heq]
  | _ => simp [lost?]

theorem lost?_congr (h : i ∈ carried ↔ i ∈ inventory) :
    e.lost? carried = some i ↔ e.lost? inventory = some i := by
  rw [lost?_eq_some_iff, lost?_eq_some_iff, h]

theorem mem_carry_of_lost?_ne (h : e.lost? inventory ≠ some i)
    (hi : i ∈ inventory ∨ e = .giveItem i) : i ∈ e.carry inventory := by
  rw [mem_carry_iff]
  by_cases hgive : e = .giveItem i
  · exact .inl hgive
  · have hi := hi.resolve_right hgive
    refine .inr ⟨hi, fun hparts => h ?_, fun l hplace => h ?_⟩
    · cases e <;> simp_all [parts?, removes?, lost?]
    · simp [hplace, lost?, hi]

theorem mem_track_iff (hagree : i ∈ carried ↔ i ∈ inventory) (h : e.lost? inventory ≠ some i) :
    i ∈ e.track carried ↔ i ∈ e.carry inventory := by
  rw [mem_carry_iff]
  cases e with
  | removeItem item | destroyItem item =>
    have hne : item ≠ i := fun heq => h (congrArg some heq)
    simp [track, parts?, removes?, hne, hagree]
  | placeItem item place | handItem item holder =>
    simp [track, parts?, removes?, hagree, eq_comm (a := i)]
  | giveItem item => simp [track, parts?, removes?, hagree, eq_comm (a := i)]
  | _ => simp [track, parts?, removes?, hagree]

end Effect

/-! ### Lists of effects -/

section
variable {c : Catalog} {s t : State} {e : Effect} {es : List Effect} {i : EntityId}

/-- The check passes an effect that loses nothing critical of what is noted as carried, and goes on
with what is noted after it. -/
theorem View.criticalLoss?_cons_eq_none_iff {carried : List EntityId} :
    criticalLoss? c carried (e :: es) = none ↔
      (∀ i, c.isCritical i = true → e.lost? carried ≠ some i) ∧
        criticalLoss? c (e.track carried) es = none := by
  have hcons : criticalLoss? c carried (e :: es) =
      ((e.lost? carried).filter c.isCritical).or (criticalLoss? c (e.track carried) es) := by
    cases e
    all_goals
      simp only [criticalLoss?, Effect.lost?, Effect.track]
      split
      all_goals
        rename_i hlost
        rw [hlost]
        rfl
  have hfilter : (e.lost? carried).filter c.isCritical = none ↔
      ∀ i, c.isCritical i = true → e.lost? carried ≠ some i := by
    rw [Option.filter_eq_none_iff]
    exact forall_congr' fun i => ⟨fun h hcrit hlost => h hlost hcrit,
      fun h hlost hcrit => h hcrit hlost⟩
  rw [hcons, Option.or_eq_none_iff, hfilter]

/-- No effect of the list loses a critical item of what is carried when its turn comes. -/
def State.Spares (c : Catalog) (s : State) (es : List Effect) : Prop :=
  ∀ before e after m, es = before ++ e :: after → s.applyAll c before = .ok m →
    ∀ i, c.isCritical i = true → e.lost? m.inventory ≠ some i

theorem State.spares_nil : s.Spares c [] := by
  intro before e after m h
  simp at h

theorem State.spares_cons_iff {m : State} (he : s.apply c e = .ok m) :
    s.Spares c (e :: es) ↔
      (∀ i, c.isCritical i = true → e.lost? s.inventory ≠ some i) ∧ m.Spares c es := by
  constructor
  · intro h
    refine ⟨h [] e es s rfl rfl, fun before e' after m' hes hm' => ?_⟩
    refine h (e :: before) e' after m' (congrArg (e :: ·) hes) ?_
    exact applyAll_cons_eq_ok_iff.2 ⟨m, he, hm'⟩
  · rintro ⟨hfirst, hrest⟩ before e' after m' hes hm'
    cases before with
    | nil =>
      obtain ⟨rfl, rfl⟩ := List.cons.inj hes
      cases hm'
      exact hfirst
    | cons e₀ before =>
      obtain ⟨rfl, rfl⟩ := List.cons.inj hes
      obtain ⟨m₀, hm₀, hm'⟩ := applyAll_cons_eq_ok_iff.1 hm'
      obtain rfl := Except.ok.inj (he.symm.trans hm₀)
      exact hrest before e' after m' rfl hm'

theorem State.inventory_of_apply (h : s.apply c e = .ok t) :
    t.inventory = e.carry s.inventory := by
  obtain ⟨-, -, rfl⟩ := apply_eq_ok_iff.1 h
  obtain ⟨_, _, _, _, _, hsame⟩ := s.exists_change_eq (c := c) e
  rw [hsame]

/-- The check passes exactly the effects that spare the critical items, if the list it starts from
has those that are carried. -/
theorem View.criticalLoss?_eq_none_iff {carried : List EntityId}
    (hagree : ∀ i, c.isCritical i = true → (i ∈ carried ↔ i ∈ s.inventory))
    (h : s.applyAll c es = .ok t) : criticalLoss? c carried es = none ↔ s.Spares c es := by
  induction es generalizing s carried with
  | nil => exact iff_of_true rfl State.spares_nil
  | cons e es ih =>
    obtain ⟨m, he, h⟩ := State.applyAll_cons_eq_ok_iff.1 h
    have hloses : (∀ i, c.isCritical i = true → e.lost? carried ≠ some i) ↔
        ∀ i, c.isCritical i = true → e.lost? s.inventory ≠ some i :=
      forall₂_congr fun i hi => not_congr (Effect.lost?_congr (hagree i hi))
    rw [criticalLoss?_cons_eq_none_iff, State.spares_cons_iff he, hloses]
    refine and_congr_right fun hspared => ih (fun i hi => ?_) h
    rw [State.inventory_of_apply he]
    exact Effect.mem_track_iff (hagree i hi) (hspared i hi)

theorem State.Spares.mem_inventory (hspares : s.Spares c es) (h : s.applyAll c es = .ok t)
    (hcrit : c.isCritical i = true) (hi : i ∈ s.inventory ∨ .giveItem i ∈ es) :
    i ∈ t.inventory := by
  induction es generalizing s with
  | nil =>
    cases h
    exact hi.resolve_right List.not_mem_nil
  | cons e es ih =>
    obtain ⟨m, he, h⟩ := applyAll_cons_eq_ok_iff.1 h
    obtain ⟨hfirst, hrest⟩ := (spares_cons_iff he).1 hspares
    refine ih hrest h ?_
    rw [inventory_of_apply he]
    have hkept := Effect.mem_carry_of_lost?_ne (e := e) (hfirst i hcrit)
    rcases hi with hcarried | hgiven
    · exact .inl (hkept (.inl hcarried))
    · rcases List.mem_cons.1 hgiven with heq | hlater
      · exact .inl (hkept (.inr heq.symm))
      · exact .inr hlater

/-- Sparing the critical items is to take none out of play, and to lay down and to hand over none
that is carried. -/
theorem State.spares_iff (h : s.applyAll c es = .ok t) :
    s.Spares c es ↔
      (∀ i, c.isCritical i = true → .removeItem i ∉ es ∧ .destroyItem i ∉ es) ∧
      ∀ before e after m i, es = before ++ e :: after → s.applyAll c before = .ok m →
        c.isCritical i = true → i ∈ m.inventory →
          (∀ l, e ≠ .placeItem i l) ∧ ∀ p, e ≠ .handItem i p := by
  constructor
  · intro hspares
    have hnone : ∀ i, c.isCritical i = true → ∀ e ∈ es, e ≠ .removeItem i ∧ e ≠ .destroyItem i := by
      intro i hi e he
      obtain ⟨before, after, rfl⟩ := List.append_of_mem he
      obtain ⟨m, hm, -⟩ := applyAll_append_eq_ok_iff.1 h
      have hlost := mt Effect.lost?_eq_some_iff.2 (hspares before e after m rfl hm i hi)
      exact not_or.1 (not_or.1 hlost).1
    refine ⟨fun i hi => ⟨fun hmem => (hnone i hi _ hmem).1 rfl,
      fun hmem => (hnone i hi _ hmem).2 rfl⟩, fun before e after m i hes hm hi hcarried => ?_⟩
    have hlost := mt Effect.lost?_eq_some_iff.2 (hspares before e after m hes hm i hi)
    have hput := fun hput => (not_or.1 hlost).2 ⟨hput, hcarried⟩
    exact ⟨fun l hl => hput (.inl ⟨l, hl⟩), fun p hp => hput (.inr ⟨p, hp⟩)⟩
  · rintro ⟨hplay, hput⟩ before e after m hes hm i hi hlost
    have hmem : e ∈ es := by simp [hes]
    rcases Effect.lost?_eq_some_iff.1 hlost with (rfl | rfl) | ⟨⟨l, rfl⟩ | ⟨p, rfl⟩, hcarried⟩
    · exact (hplay i hi).1 hmem
    · exact (hplay i hi).2 hmem
    · exact (hput before _ after m i hes hm hi hcarried).1 l rfl
    · exact (hput before _ after m i hes hm hi hcarried).2 p rfl

theorem View.checkCritical_eq_none_iff_spares (h : s.applyAll c es = .ok t) :
    (View.mk c s).checkCritical es = none ↔ s.Spares c es := by
  rw [← criticalLoss?_eq_none_iff (fun _ _ => Iff.rfl) h]
  unfold checkCritical
  cases criticalLoss? c s.inventory es with
  | none => exact iff_of_true rfl rfl
  | some i => exact iff_of_false (fun h => nomatch h) (fun h => nomatch h)

/-- Of effects that can be applied the check passes exactly those of which none takes a critical
item out of play, or lays down or hands over one that the effects before it left with the player.
What it passes leaves every critical item with the player that was carried at first or is given on
the way. -/
theorem View.checkCritical_eq_none_iff (h : s.applyAll c es = .ok t) :
    ((View.mk c s).checkCritical es = none ↔
      (∀ i, c.isCritical i = true → .removeItem i ∉ es ∧ .destroyItem i ∉ es) ∧
      ∀ before e after m i, es = before ++ e :: after → s.applyAll c before = .ok m →
        c.isCritical i = true → i ∈ m.inventory →
          (∀ l, e ≠ .placeItem i l) ∧ ∀ p, e ≠ .handItem i p) ∧
    ((View.mk c s).checkCritical es = none → ∀ i, c.isCritical i = true →
      i ∈ s.inventory ∨ .giveItem i ∈ es → i ∈ t.inventory) :=
  ⟨(checkCritical_eq_none_iff_spares h).trans (State.spares_iff h), fun hpass _ hcrit hi =>
    ((checkCritical_eq_none_iff_spares h).1 hpass).mem_inventory h hcrit hi⟩

end

/-- A treasury with a critical crown in it, and a sack that the player carries. -/
def treasuryDoc : WorldDocument where
  world := some { title := "Treasury" }
  start := some { location := "treasury", inventory := ["sack"] }
  locations := [{ id := "treasury", name := "Treasury" }]
  items := [
    { id := "crown", name := "crown", location := some "treasury", critical := true },
    { id := "sack", name := "sack" }]
  acts := [{ id := "dusk", locations := ["treasury"] }]

def treasury : Catalog := .draft treasuryDoc

/-- Putting the crown in its place before taking it is no loss of it, nor is parting with the sack.
Laying the crown down only to take it up again is one. -/
theorem crown_taken_from_treasury :
    ∃ t, (State.initial treasury).applyAll treasury
        [.placeItem "crown" "treasury", .giveItem "crown", .removeItem "sack"] = .ok t ∧
      "crown" ∈ t.inventory ∧
    ∃ t', (State.initial treasury).applyAll treasury
        [.giveItem "crown", .placeItem "crown" "treasury", .giveItem "crown"] = .ok t' ∧
      "crown" ∈ t'.inventory ∧
      (View.mk treasury (.initial treasury)).checkCritical
        [.giveItem "crown", .placeItem "crown" "treasury", .giveItem "crown"] ≠ none := by
  have hcrit : treasury.isCritical "crown" = true := by decide
  obtain ⟨t, ht⟩ : ∃ t, (State.initial treasury).applyAll treasury
      [.placeItem "crown" "treasury", .giveItem "crown", .removeItem "sack"] = .ok t := ⟨_, rfl⟩
  obtain ⟨m, hm, hcarried⟩ : ∃ m, (State.initial treasury).applyAll treasury
      [.giveItem "crown"] = .ok m ∧ "crown" ∈ m.inventory := ⟨_, rfl, by decide⟩
  obtain ⟨t', ht', hback⟩ : ∃ t, (State.initial treasury).applyAll treasury
      [.giveItem "crown", .placeItem "crown" "treasury", .giveItem "crown"] = .ok t ∧
      "crown" ∈ t.inventory := ⟨_, rfl, by decide⟩
  refine ⟨t, ht, ?_, t', ht', hback, fun hpass => ?_⟩
  · exact (View.checkCritical_eq_none_iff ht).2 (by decide) "crown" hcrit (.inr (by decide))
  · have hput := ((View.checkCritical_eq_none_iff ht').1.1 hpass).2
    exact (hput [.giveItem "crown"] _ _ m "crown" rfl hm hcrit hcarried).1 "treasury" rfl

end Storyworld
