import Storyworld.Verdict

/-!
# Approved plans

A plan has the effects of its intent and those of the interaction that goes with it (`plan_cases`).
It is approved when none of the checks objects (`approves_of_validate`). The lemmas after it say what
each check has made sure of.
-/

namespace Storyworld

/-! ### Plans -/

/-- How an interaction comes to go with an intent. -/
inductive Rides : Intent → Interaction → Prop
  | examine {d : Interaction} {key : EntityKey} (target : d.target = some key) :
      Rides (.examine (some key)) d
  | take {d : Interaction} {key : EntityKey} (kind : d.kind = .take) (item : d.item = some key.id) :
      Rides (.take key) d
  | use {d : Interaction} {key : EntityKey} {on : Option EntityKey} (kind : d.kind = .use)
      (item : d.item = some key.id) (target : d.target = on) : Rides (.use key on) d
  | talk {d : Interaction} {key : EntityKey} (target : d.target = some key) : Rides (.talk key) d
  | interact {d : Interaction} {id : EntityId} : Rides (.interact id) d

namespace View

variable {v : View} {p : Plan}

theorem mem_of_preferred {ds : List Interaction} {d : Interaction} (h : v.preferred ds = some d) :
    d ∈ ds := by
  unfold preferred at h
  dsimp only at h
  rw [Option.orElse_eq_orElse, Option.orElse_eq_or] at h
  rcases Option.or_eq_some_iff.1 h with h | ⟨-, h⟩
  · exact (List.mem_filter.1 (List.mem_of_find?_eq_some h)).1
  · exact (List.mem_filter.1 (List.mem_of_head? h)).1

theorem rides_of_rider? {i : Intent} {d : Interaction} (h : v.rider? i = some d) :
    d ∈ v.catalog.interactions.toList ∧ Rides i d := by
  unfold rider? at h
  split at h
  · cases h
  · cases h
  · cases h
  · rename_i key
    have hmem := List.mem_of_find?_eq_some h
    have htarget := List.find?_some h
    exact ⟨(List.mem_filter.1 hmem).1, .examine (by simpa using (Bool.and_eq_true_iff.1 htarget).1)⟩
  · rename_i key
    obtain ⟨hmem, hitem⟩ := List.mem_filter.1 (mem_of_preferred h)
    obtain ⟨hmem, hkind⟩ := List.mem_filter.1 hmem
    have hkind := (Bool.and_eq_true_iff.1 hkind).1
    exact ⟨hmem, .take (by simpa using hkind) (by simpa using hitem)⟩
  · rename_i key on
    obtain ⟨hmem, hitem⟩ := List.mem_filter.1 (mem_of_preferred h)
    obtain ⟨hmem, hkind⟩ := List.mem_filter.1 hmem
    have hkind := (Bool.and_eq_true_iff.1 hkind).1
    obtain ⟨hitem, htarget⟩ := Bool.and_eq_true_iff.1 hitem
    have hitem := (Bool.and_eq_true_iff.1 hitem).1
    exact ⟨hmem, .use (by simpa using hkind) (by simpa using hitem) (by simpa using htarget)⟩
  · rename_i key
    obtain ⟨hmem, htarget⟩ := List.mem_filter.1 (mem_of_preferred h)
    exact ⟨(List.mem_filter.1 hmem).1, .talk (by simpa using htarget)⟩
  · exact ⟨Table.mem_of_get? h, .interact⟩

/-- The effects of a plan are those of the intent itself and then those of its interaction. -/
theorem plan_cases (v : View) (i : Intent) :
    (v.plan i).intent = i ∧
    ((v.rider? i = none ∧ (v.plan i).effects = v.ownEffects i ∧ (v.plan i).interaction = none) ∨
      ∃ d, v.rider? i = some d ∧ (v.plan i).effects = v.ownEffects i ++ d.effects ∧
        (v.plan i).interaction.bind v.catalog.interactions.get? = some d) := by
  unfold plan
  cases hd : v.rider? i with
  | none => exact ⟨rfl, .inl ⟨rfl, rfl, rfl⟩⟩
  | some d =>
    refine ⟨rfl, .inr ⟨d, rfl, rfl, ?_⟩⟩
    exact Table.get?_eq_some_iff.2 ⟨(rides_of_rider? hd).1, rfl⟩

/-! ### Verdicts -/

/-- No check objects to the plan. -/
structure Approves (v : View) (p : Plan) : Prop where
  fit : checkFit v p.intent = none
  access : v.checkAccess p = none
  ownership : v.checkOwnership p.intent = none
  critical : v.checkCritical p.effects = none
  winnable : v.checkWinnable p.effects = none

end View

/-- The verdict objects to the plan, with one of the given refusals if with any. -/
def Verdict.Objects (x : Verdict) (rs : List Refusal) : Prop :=
  x.isApproved = false ∧ ∀ r, x.refusal? = some r → r ∈ rs

theorem Verdict.Objects.mono {x : Verdict} {rs rs' : List Refusal} (h : x.Objects rs)
    (hrs : ∀ r ∈ rs, r ∈ rs') : x.Objects rs' :=
  ⟨h.1, fun r hr => hrs r (h.2 r hr)⟩

theorem Verdict.objects_object {r : Refusal} {reason : String} {x : Verdict} {rs : List Refusal}
    (hr : r ∈ rs) (h : object r reason = some x) : x.Objects rs := by
  cases h
  exact ⟨rfl, fun r' hr' => by cases hr'; exact hr⟩

namespace View

open Verdict (objects_object)

variable {v : View} {p : Plan} {i : Intent} {x : Verdict}

theorem objects_checkFit (h : v.checkFit i = some x) : x.Objects [] := by
  unfold checkFit at h
  split at h
  · cases h
  · split at h
    · cases h
    · cases h
      exact ⟨rfl, fun r hr => nomatch hr⟩

theorem objects_checkPresent {key : EntityKey} (h : v.checkPresent key = some x) :
    x.Objects [.notHere] := by
  unfold checkPresent at h
  split at h
  · cases h
  · exact objects_object (by decide) h

theorem objects_checkWay {e : EntityId} (h : v.checkWay e = some x) :
    x.Objects [.notHere, .exitHidden, .actBoundary, .exitLocked] := by
  unfold checkWay at h
  split at h
  · exact objects_object (by decide) h
  · split at h
    · exact objects_object (by decide) h
    · split at h
      · exact objects_object (by decide) h
      · split at h
        · exact objects_object (by decide) h
        · cases h

theorem objects_checkTarget (h : v.checkTarget i = some x) :
    x.Objects [.notHere, .exitHidden, .actBoundary, .exitLocked] := by
  unfold checkTarget at h
  split at h
  · exact objects_checkWay h
  · exact (objects_checkPresent h).mono (by decide)
  · exact (objects_checkPresent h).mono (by decide)
  · exact (objects_checkPresent h).mono (by decide)
  · cases h

theorem objects_checkInteraction {d : Interaction} (h : v.checkInteraction i d = some x) :
    x.Objects [.notHere, .requirementUnmet, .alreadyDone] := by
  unfold checkInteraction at h
  split at h
  · exact objects_object (by decide) h
  · rw [Option.orElse_eq_orElse, Option.orElse_eq_or] at h
    rcases Option.or_eq_some_iff.1 h with h | ⟨-, h⟩
    · split at h
      · exact (objects_checkPresent h).mono (by decide)
      · cases h
    · split at h
      · exact objects_object (by decide) h
      · split at h
        · exact objects_object (by decide) h
        · cases h

theorem isApproved_checkAccess (h : v.checkAccess p = some x) : x.isApproved = false := by
  unfold checkAccess at h
  rw [Option.orElse_eq_orElse, Option.orElse_eq_or] at h
  rcases Option.or_eq_some_iff.1 h with h | ⟨-, h⟩
  · exact (objects_checkTarget h).1
  · obtain ⟨d, -, h⟩ := Option.bind_eq_some_iff.1 h
    exact (objects_checkInteraction h).1

theorem objects_checkOwnership (h : v.checkOwnership i = some x) :
    x.Objects [.notCarried, .alreadyCarried, .notHere, .notPortable] := by
  unfold checkOwnership at h
  split at h
  · split at h
    · cases h
    · exact objects_object (by decide) h
  · split at h
    · cases h
    · exact objects_object (by decide) h
  · split at h
    · exact objects_object (by decide) h
    · split at h
      · exact objects_object (by decide) h
      · split at h
        · exact objects_object (by decide) h
        · cases h
  · cases h

theorem objects_checkCritical {es : List Effect} (h : v.checkCritical es = some x) :
    x.Objects [.criticalItem] := by
  unfold checkCritical at h
  split at h
  · cases h
  · exact objects_object (by decide) h

theorem objects_checkWinnable {es : List Effect} (h : v.checkWinnable es = some x) :
    x.Objects [.unwinnable] := by
  unfold checkWinnable at h
  split at h
  · cases h
  · split at h
    · cases h
    · split at h
      · cases h
      · exact objects_object (by decide) h

theorem eq_none_of_getD_approved {a b : Option Verdict} {es es' : List Effect}
    (ha : ∀ x, a = some x → x.isApproved = false)
    (h : (a <|> b).getD (.approved es) = .approved es') :
    a = none ∧ b.getD (.approved es) = .approved es' := by
  cases a with
  | none => exact ⟨rfl, by simpa using h⟩
  | some x =>
    obtain rfl : x = .approved es' := by simpa using h
    exact absurd (ha _ rfl) (by simp [Verdict.isApproved])

/-- A plan is approved with its own effects, when no check objects to it. -/
theorem approves_of_validate {es : List Effect} (h : v.validate p = .approved es) :
    v.Approves p ∧ es = p.effects := by
  unfold validate at h
  obtain ⟨fit, h⟩ := eq_none_of_getD_approved (fun _ h => (objects_checkFit h).1) h
  obtain ⟨access, h⟩ := eq_none_of_getD_approved (fun _ => isApproved_checkAccess) h
  obtain ⟨ownership, h⟩ := eq_none_of_getD_approved (fun _ h => (objects_checkOwnership h).1) h
  obtain ⟨critical, h⟩ := eq_none_of_getD_approved (fun _ h => (objects_checkCritical h).1) h
  cases hw : v.checkWinnable p.effects with
  | none =>
    rw [hw] at h
    exact ⟨⟨fit, access, ownership, critical, hw⟩, by cases h; rfl⟩
  | some x =>
    rw [hw] at h
    obtain rfl : x = .approved es := h
    exact absurd (objects_checkWinnable hw).1 (by simp [Verdict.isApproved])

/-! ### What the checks make sure of -/

theorem exit?_eq_some {x : EntityId} {e : Exit} (h : v.exit? x = some e) :
    ∃ d, v.catalog.exits.get? x = some d ∧ e.id = d.id ∧ e.origin = d.origin ∧
      e.destination = d.destination ∧ e.visibleWhen = d.visibleWhen ∧ e.openWhen = d.openWhen := by
  unfold exit? at h
  obtain ⟨d, hd, rfl⟩ := Option.map_eq_some_iff.1 h
  refine ⟨d, hd, ?_⟩
  split <;> exact ⟨rfl, rfl, rfl, rfl, rfl⟩

/-- A way that is not objected to is an exit from here, seen and open, to a place within reach. -/
theorem exit_of_checkWay {x : EntityId} (h : v.checkWay x = none) :
    ∃ e, v.exit? x = some e ∧ e.origin = v.state.location ∧ v.exitVisible e = true ∧
      e.destination ∈ v.reachableLocations ∧ v.exitOpen e = true := by
  unfold checkWay at h
  split at h
  · cases h
  · rename_i e he
    obtain ⟨he, horigin⟩ := Option.filter_eq_some_iff.1 he
    split at h
    · cases h
    · rename_i hvisible
      split at h
      · cases h
      · rename_i hreach
        split at h
        · cases h
        · rename_i hopen
          exact ⟨e, he, by simpa using horigin, by simpa using hvisible,
            SortedSet.mem_iff_contains.2 (by simpa using hreach), by simpa using hopen⟩

theorem present_of_checkPresent {key : EntityKey} (h : v.checkPresent key = none) :
    v.isPresent key = true := by
  unfold checkPresent at h
  split at h
  · assumption
  · cases h

theorem present_of_checkInteraction {x : EntityId} {d : Interaction} {key : EntityKey}
    (h : v.checkInteraction (.interact x) d = none) (hkey : d.target = some key) :
    v.isPresent key = true := by
  unfold checkInteraction at h
  rw [hkey] at h
  split at h
  · cases h
  · rw [Option.orElse_eq_orElse, Option.orElse_eq_or] at h
    exact present_of_checkPresent (Option.or_eq_none_iff.1 h).1

theorem ready_of_checkInteraction {i : Intent} {d : Interaction}
    (h : v.checkInteraction i d = none) :
    v.offers d = true ∧ v.holds? d.requires = true ∧ v.spent d = false := by
  unfold checkInteraction at h
  split at h
  · cases h
  · rename_i hoffers
    rw [Option.orElse_eq_orElse, Option.orElse_eq_or] at h
    obtain ⟨-, h⟩ := Option.or_eq_none_iff.1 h
    split at h
    · cases h
    · rename_i hholds
      split at h
      · cases h
      · rename_i hspent
        exact ⟨by simpa using hoffers, by simpa using hholds, by simpa using hspent⟩

theorem lies_of_checkOwnership {key : EntityKey} (h : v.checkOwnership (.take key) = none) :
    v.placement key.id = .location v.state.location ∧
      ∀ d, v.catalog.items.get? key.id = some d → d.portable = true := by
  unfold checkOwnership at h
  dsimp only at h
  split at h
  · cases h
  · split at h
    · cases h
    · rename_i hlies
      split at h
      · cases h
      · rename_i hfixed
        refine ⟨by simpa [Placement.isIn] using hlies, fun d hd => ?_⟩
        rw [hd] at hfixed
        simpa using hfixed

/-- The item is carried, or it is a fixture that stands where the player is. -/
def AtHand (v : View) (item : EntityId) : Prop :=
  item ∈ v.state.inventory ∨
    (∃ d, v.catalog.items.get? item = some d ∧ d.portable = false) ∧
      v.placement item = .location v.state.location

theorem atHand_of_checkOwnership {key : EntityKey} {on : Option EntityKey}
    (h : v.checkOwnership (.use key on) = none) : v.AtHand key.id := by
  unfold checkOwnership at h
  dsimp only at h
  split at h
  · rename_i hor
    refine (Bool.or_eq_true_iff.1 hor).imp List.contains_iff_mem.1 fun hfixture => ?_
    obtain ⟨hfixed, hhere⟩ := Bool.and_eq_true_iff.1 hfixture
    refine ⟨?_, by simpa [Placement.isIn] using hhere⟩
    cases hd : v.catalog.items.get? key.id with
    | none =>
      rw [hd] at hfixed
      cases hfixed
    | some d =>
      rw [hd] at hfixed
      exact ⟨d, rfl, by simpa using hfixed⟩
  · cases h

theorem carried_of_checkOwnership {key : EntityKey} (h : v.checkOwnership (.drop key) = none) :
    v.state.hasItem key.id = true := by
  unfold checkOwnership at h
  dsimp only at h
  split at h
  · assumption
  · cases h

theorem Approves.target (h : v.Approves p) : v.checkTarget p.intent = none := by
  have h := h.access
  unfold checkAccess at h
  rw [Option.orElse_eq_orElse, Option.orElse_eq_or] at h
  exact (Option.or_eq_none_iff.1 h).1

theorem Approves.interaction (h : v.Approves p) {d : Interaction}
    (hd : p.interaction.bind v.catalog.interactions.get? = some d) :
    v.checkInteraction p.intent d = none := by
  have h := h.access
  unfold checkAccess at h
  rw [Option.orElse_eq_orElse, Option.orElse_eq_or] at h
  have h := (Option.or_eq_none_iff.1 h).2
  rwa [hd] at h

end View
end Storyworld
