import Storyworld.Proofs.Simulation

/-!
# Counting

Of the changes that may be made to a counter an outlook keeps no more than their directions, and of
a comparison it asks for no more than the two ends of the range. Nothing is lost by that: a counter
may come to compare so with a value exactly if finitely many saturating changes of these directions
bring it there, from what it is or from what it may be set to (`Outlook.counterMay_iff_adjusted`).
Changes of a direction come to every count on that side, for three of them are enough to go from any
count to any other (`Count.foldl_addSat_steps`). Since foreseen effects do no more to a counter, this
is also what they may bring about when they are applied (`Outlook.counterMay_iff_applied`).
-/

namespace Storyworld

namespace Count

/-- Three changes of one direction that take one count to another. Two are not enough to go from the
least count to the greatest. -/
def steps (a b : Count) : List Count :=
  [0, 1, 2].map fun i => Int64.ofInt ((b.toInt - a.toInt + i) / 3)

variable {a b d : Count}

theorem toInt_step {i : Int} (hi : 0 ≤ i) (hi3 : i < 3) :
    (Int64.ofInt ((b.toInt - a.toInt + i) / 3)).toInt = (b.toInt - a.toInt + i) / 3 := by
  have ha := fits_toInt a
  have hb := fits_toInt b
  unfold Fits at ha hb
  exact toInt_ofInt ⟨by omega, by omega⟩

theorem foldl_addSat_steps (a b : Count) : (steps a b).foldl addSat a = b := by
  have ha := fits_toInt a
  have hb := fits_toInt b
  unfold Fits at ha hb
  rw [← Int64.toInt_inj]
  simp only [steps, List.map_cons, List.map_nil, List.foldl_cons, List.foldl_nil, toInt_addSat,
    toInt_least, toInt_greatest]
  rw [toInt_step (by decide) (by decide), toInt_step (by decide) (by decide),
    toInt_step (by decide) (by decide)]
  omega

theorem lt_of_mem_steps (hd : d ∈ steps a b) : (0 < d → a < b) ∧ (d < 0 → b < a) := by
  obtain ⟨i, hi, rfl⟩ := List.mem_map.1 hd
  have hi : 0 ≤ i ∧ i < 3 := by
    simp only [List.mem_cons, List.not_mem_nil, or_false] at hi
    omega
  simp only [Int64.lt_iff_toInt_lt, toInt_step hi.1 hi.2, Int64.toInt_zero]
  omega

end Count

namespace State

variable {c : Catalog} {p : EntityId}

theorem apply_setCounter (hp : c.contains (.character p) = true) (s : State) (n : String)
    (x : Count) : s.apply c (.setCounter p n x) = .ok (s.setCounter c p n x) :=
  apply_eq_ok_iff.2 ⟨List.forall_mem_singleton.2 hp, rfl, rfl⟩

theorem apply_adjustCounter (hp : c.contains (.character p) = true) (s : State) (n : String)
    (d : Count) : s.apply c (.adjustCounter p n d) =
      .ok (s.setCounter c p n (((View.mk c s).counter p n).addSat d)) :=
  apply_eq_ok_iff.2 ⟨List.forall_mem_singleton.2 hp, rfl, rfl⟩

theorem exists_applyAll_adjustCounter (hp : c.contains (.character p) = true) (s : State)
    (n : String) (changes : List Count) :
    ∃ t, s.applyAll c (changes.map (.adjustCounter p n)) = .ok t ∧
      (View.mk c t).counter p n = changes.foldl Count.addSat ((View.mk c s).counter p n) := by
  induction changes generalizing s with
  | nil => exact ⟨s, rfl, rfl⟩
  | cons d ds ih =>
    obtain ⟨t, ht, hsum⟩ := ih (s.setCounter c p n (((View.mk c s).counter p n).addSat d))
    rw [View.counter_setCounter, if_pos ⟨rfl, rfl⟩] at hsum
    exact ⟨t, applyAll_cons_eq_ok_iff.2 ⟨_, apply_adjustCounter hp s n d, ht⟩, hsum⟩

end State

namespace Outlook

variable {v : View} {o : Outlook} {p : EntityId} {n : String} {x d value : Count}
  {changes : List Count} {cmp : Comparison}

/-! ### Changes of a counter -/

/-- Foreseen changes leave a counter at an attainable count. -/
theorem Attainable.foldl_addSat (h : o.Attainable v p n x)
    (hchanges : ∀ d ∈ changes, o.Foresees v (.adjustCounter p n d)) :
    o.Attainable v p n (changes.foldl Count.addSat x) := by
  induction changes generalizing x with
  | nil => exact h
  | cons d ds ih =>
    obtain ⟨hd, hds⟩ := List.forall_mem_cons.1 hchanges
    exact ih (h.addSat hd) hds

/-- The attainable counts are those to which foreseen changes bring the counter. -/
theorem attainable_iff :
    o.Attainable v p n x ↔
      ∃ (start : Count) (changes : List Count),
        (start = v.counter p n ∨ o.knows (.count p n start) = true) ∧
        (∀ d ∈ changes, o.Foresees v (.adjustCounter p n d)) ∧
        changes.foldl Count.addSat start = x := by
  constructor
  · rintro ⟨start, hstart, hup, hdown⟩
    refine ⟨start, start.steps x, hstart, fun d hd => ?_, Count.foldl_addSat_steps start x⟩
    obtain ⟨hpos, hneg⟩ := Count.lt_of_mem_steps hd
    exact foresees_adjustCounter_iff.2 ⟨fun h => hup (hpos h), fun h => hdown (hneg h)⟩
  · rintro ⟨start, changes, hstart, hchanges, rfl⟩
    exact (Attainable.of_start hstart).foldl_addSat hchanges

/-- A counter may come to compare so with a value exactly if finitely many saturating changes bring
it to a count that does, from what it is or from a value to which it may be set. Changes upwards are
made only if it may go up, and changes downwards only if it may go down. -/
theorem counterMay_iff_adjusted :
    o.counterMay v p n cmp value = true ↔
      ∃ (start : Count) (changes : List Count),
        (start = v.counter p n ∨ (p, n, start) ∈ o.counterValues) ∧
        (∀ d ∈ changes, (0 < d → (p, n) ∈ o.raised) ∧ (d < 0 → (p, n) ∈ o.lowered)) ∧
        cmp.holds (changes.foldl Count.addSat start) value = true := by
  simp only [counterMay_iff_attainable, attainable_iff, foresees_adjustCounter_iff, knows,
    List.contains_iff_mem]
  constructor
  · rintro ⟨_, ⟨start, changes, hstart, hchanges, rfl⟩, hholds⟩
    exact ⟨start, changes, hstart, hchanges, hholds⟩
  · rintro ⟨start, changes, hstart, hchanges, hholds⟩
    exact ⟨_, ⟨start, changes, hstart, hchanges, rfl⟩, hholds⟩

/-- A counter that goes up as far as it can is not beyond the end of the range. -/
example :
    let o : Outlook := { (default : Outlook) with raised := [("keeper", "trust")] }
    o.counterMay default "keeper" "trust" .eq Count.greatest = true ∧
      o.counterMay default "keeper" "trust" .gt Count.greatest = false := by
  decide

/-! ### Effects that are applied -/

theorem Attainable.applyAll {es : List Effect} {s t : State}
    (h : o.Attainable v p n ((View.mk v.catalog s).counter p n))
    (hes : ∀ e ∈ es, o.Foresees v e) (hap : s.applyAll v.catalog es = .ok t) :
    o.Attainable v p n ((View.mk v.catalog t).counter p n) := by
  induction es generalizing s with
  | nil =>
    cases hap
    exact h
  | cons e es ih =>
    obtain ⟨he, hes⟩ := List.forall_mem_cons.1 hes
    obtain ⟨m, hm, hap⟩ := State.applyAll_cons_eq_ok_iff.1 hap
    obtain ⟨-, -, rfl⟩ := State.apply_eq_ok_iff.1 hm
    exact ih (h.change he) hes hap

/-- The counter of a declared character may come to compare so with a value exactly if foreseen
effects can be applied after which it does. -/
theorem counterMay_iff_applied (hp : v.catalog.contains (.character p) = true) :
    o.counterMay v p n cmp value = true ↔
      ∃ es t, (∀ e ∈ es, o.Foresees v e) ∧ v.state.applyAll v.catalog es = .ok t ∧
        (View.mk v.catalog t).holdsAtom (.counter p n cmp value) = true := by
  rw [counterMay_iff_attainable]
  constructor
  · rintro ⟨x, hx, hholds⟩
    obtain ⟨start, changes, hstart, hchanges, rfl⟩ := attainable_iff.1 hx
    have hadjusts : ∀ e ∈ changes.map (Effect.adjustCounter p n), o.Foresees v e :=
      List.forall_mem_map.2 hchanges
    rcases hstart with rfl | hset
    · obtain ⟨t, ht, hsum⟩ := State.exists_applyAll_adjustCounter hp v.state n changes
      refine ⟨_, t, hadjusts, ht, ?_⟩
      rw [← hsum] at hholds
      exact hholds
    · obtain ⟨t, ht, hsum⟩ := State.exists_applyAll_adjustCounter hp
        (v.state.setCounter v.catalog p n start) n changes
      rw [View.counter_setCounter, if_pos ⟨rfl, rfl⟩] at hsum
      have hforesees : o.Foresees v (.setCounter p n start) :=
        List.forall_mem_singleton.2 hset
      refine ⟨_, t, List.forall_mem_cons.2 ⟨hforesees, hadjusts⟩,
        State.applyAll_cons_eq_ok_iff.2 ⟨_, State.apply_setCounter hp v.state n start, ht⟩, ?_⟩
      rw [← hsum] at hholds
      exact hholds
  · rintro ⟨es, t, hes, hap, hholds⟩
    exact ⟨_, Attainable.applyAll (.of_start (.inl rfl)) hes hap, hholds⟩

end Outlook
end Storyworld
