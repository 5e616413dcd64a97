import Storyworld.Proofs.Coverage
import Storyworld.Proofs.Critical
import Storyworld.Proofs.Restoration

/-!
# Taking in an effect and applying it

An outlook takes in an effect (`Outlook.absorb`) so that it accepts what the state satisfies after
the effect if it accepts what the state satisfies before. What is new after an effect is one of the
facts that the outlook learns of it (`Outlook.Accepts.answer`), whatever the outlook and the state,
except where the record of a carried item is an override of another kind. That has no placement to
set: an item that the player parts with then goes back to where it was at first (`State.Strays`),
and the outlook does not learn of it. `Outlook.absorb_simulates` says that nothing else is missed.
-/

namespace Storyworld

/-! ### Knowing more -/

namespace Condition

mutual
/-- The optimistic reading accepts no less when it accepts no fewer atoms. -/
theorem possible_mono {f g : Atom → Bool} :
    (c : Condition) → (∀ a ∈ c.atoms, f a = true → g a = true) → c.possible f = true →
      c.possible g = true
  | always, _, _ => rfl
  | atom a, hfg, h => hfg a (by simp [atoms]) h
  | not _, _, _ => rfl
  | all cs, hfg, h => (possibleLists_mono cs hfg).1 h
  | any cs, hfg, h => (possibleLists_mono cs hfg).2 h
theorem possibleLists_mono {f g : Atom → Bool} :
    (cs : List Condition) → (∀ a ∈ atomsOf cs, f a = true → g a = true) →
      (possibleAll f cs = true → possibleAll g cs = true) ∧
      (possibleAny f cs = true → possibleAny g cs = true)
  | [], _ => ⟨id, id⟩
  | c :: cs, hfg => by
    have h1 := possible_mono c fun a ha => hfg a (by simp [atomsOf, ha])
    have h2 := possibleLists_mono cs fun a ha => hfg a (by simp [atomsOf, ha])
    simp only [possibleAll, possibleAny, Bool.and_eq_true, Bool.or_eq_true]
    exact ⟨fun h => ⟨h1 h.1, h2.1 h.2⟩, fun h => h.imp h1 h2.2⟩
end

end Condition

namespace Outlook

variable {v : View} {o o' : Outlook}

/-- The other outlook knows whatever this one knows. -/
def Below (o o' : Outlook) : Prop := ∀ f, o.knows f = true → o'.knows f = true

theorem Below.attainable (h : o.Below o') {p : EntityId} {n : String} {x : Count}
    (hx : o.Attainable v p n x) : o'.Attainable v p n x := by
  obtain ⟨start, hstart, hup, hdown⟩ := hx
  exact ⟨start, hstart.imp_right (h _), fun hlt => h _ (hup hlt), fun hlt => h _ (hdown hlt)⟩

theorem Below.counterMay (h : o.Below o') {p : EntityId} {n : String} {cmp : Comparison}
    {value : Count} (hmay : o.counterMay v p n cmp value = true) :
    o'.counterMay v p n cmp value = true := by
  obtain ⟨x, hx, hholds⟩ := counterMay_iff_attainable.1 hmay
  exact counterMay_iff_attainable.2 ⟨x, h.attainable hx, hholds⟩

theorem attainable_of_may {p : EntityId} {n : String} {x : Count}
    (h : o.mayAtom v (.counter p n .eq x) = true) : o.Attainable v p n x := by
  rcases Bool.or_eq_true_iff.1 h with hnow | hlater
  · have hnow : v.counter p n = x := by
      simpa [View.holdsAtom, View.answer, Comparison.holds] using hnow
    exact .of_start (.inl hnow.symm)
  · obtain ⟨y, hy, heq⟩ := counterMay_iff_attainable.1 hlater
    obtain rfl : y = x := by simpa [Comparison.holds] using heq
    exact hy

theorem Below.mayLater (h : o.Below o') {f g : EntityId → Bool} (hfg : ∀ d, f d = true → g d = true)
    {a : Atom} (ha : o.mayLater v f a = true) : o'.mayLater v g a = true := by
  cases a with
  | flag n => exact h (.truthy n) ha
  | flagEquals n x => exact h (.value n x) ha
  | hasItem i => exact h (.gain i) ha
  | itemAt i l =>
    refine Bool.or_eq_true_iff.2 ((Bool.or_eq_true_iff.1 ha).imp (h (.place i l)) fun ha => ?_)
    obtain ⟨hgain, hvisit⟩ := Bool.and_eq_true_iff.1 ha
    exact Bool.and_eq_true_iff.2 ⟨h (.gain i) hgain, h (.visit l) hvisit⟩
  | «at» l => exact h (.visit l) ha
  | counter p n cmp x => exact h.counterMay ha
  | spoke d => exact hfg d ha
  | beatFired b => exact h (.beat b) ha
  | actReached a =>
    obtain ⟨i, hi, hle⟩ := (Option.any_eq_true _ _).1 ha
    exact (Option.any_eq_true _ _).2 ⟨i, hi, h (.act i) hle⟩
  | interactionUsed d => exact h (.ran d) ha

theorem Below.mayInSpoke (h : o.Below o') {a : Atom} (ha : o.mayInSpoke v a = true) :
    o'.mayInSpoke v a = true :=
  Bool.or_eq_true_iff.2 ((Bool.or_eq_true_iff.1 ha).imp_right (h.mayLater fun d => h (.spoke d)))

theorem Below.mayAtom (h : o.Below o') {a : Atom} (ha : o.mayAtom v a = true) :
    o'.mayAtom v a = true := by
  refine Bool.or_eq_true_iff.2 ((Bool.or_eq_true_iff.1 ha).imp_right (h.mayLater fun d hd => ?_))
  refine Bool.or_eq_true_iff.2 ((Bool.or_eq_true_iff.1 hd).imp (h (.spoke d)) fun hd => ?_)
  obtain ⟨x, hx, hmay⟩ := (Option.any_eq_true _ _).1 hd
  exact (Option.any_eq_true _ _).2
    ⟨x, hx, Condition.possible_mono x.condition (fun _ _ => h.mayInSpoke) hmay⟩

end Outlook

/-! ### Where an item is on record -/

theorem Override.placement?_of_isEmpty {o : Override} (h : o.isEmpty = true) :
    o.placement? = none := by
  cases o with
  | item p d => cases p <;> simp_all [isEmpty, fieldCount, placement?]
  | _ => rfl

namespace State

variable {s : State} {key k : EntityKey} {change : Override → Override}

/-- The item is on record with an override of another kind, which has no placement. -/
def Misfiled (s : State) (i : EntityId) : Prop :=
  ∃ o, s.overrides.get? (.item i) = some o ∧ o.kind ≠ .item

theorem KindsMatch.not_misfiled (hs : s.KindsMatch) (i : EntityId) : ¬s.Misfiled i :=
  fun ⟨o, ho, hkind⟩ => hkind (hs _ o ho)

theorem placement?_updateOverride :
    ((s.updateOverride key change).overrides.get? k).bind Override.placement? =
      if k = key then (s.overrideOf key).bind fun o => (change o).placement?
      else (s.overrides.get? k).bind Override.placement? := by
  cases hold : s.overrideOf key with
  | none =>
    rw [updateOverride_of_none hold]
    split
    · rename_i hk
      unfold overrideOf at hold
      rw [Option.orElse_eq_orElse, Option.orElse_eq_or, Option.or_eq_none_iff] at hold
      rw [hk, hold.1]
      rfl
    · rfl
  | some old =>
    rw [updateOverride_of_some hold]
    by_cases hk : k = key
    · subst hk
      split
      · rename_i hempty
        simp [Override.placement?_of_isEmpty hempty]
      · simp
    · split <;> simp [hk]

end State

namespace View

variable {c : Catalog} {s : State} {i j : EntityId} {p : Placement} {key : EntityKey}
  {change : Override → Override}

theorem recordedPlacement_of_misfiled (h : s.Misfiled i) :
    (View.mk c s).recordedPlacement i = c.initialPlacement i := by
  obtain ⟨o, ho, hkind⟩ := h
  have hnone : o.placement? = none := by
    cases o with
    | item p d => exact absurd rfl hkind
    | _ => rfl
  simp [recordedPlacement, override?, ho, hnone]

theorem recordedPlacement_updateOverride (hchange : ∀ o, (change o).placement? = o.placement?) :
    (View.mk c (s.updateOverride key change)).recordedPlacement i =
      (View.mk c s).recordedPlacement i := by
  unfold recordedPlacement override?
  rw [State.placement?_updateOverride]
  split
  · rename_i hi
    have hrecord : (s.overrides.get? key).bind Override.placement? =
        (s.overrideOf key).bind Override.placement? := State.get?_bind s .placement key
    simp only [hi, hchange, hrecord]
  · rfl

theorem recordedPlacement_setPlacement_of_ne (hj : j ≠ i) :
    (View.mk c (s.setPlacement c i p)).recordedPlacement j =
      (View.mk c s).recordedPlacement j := by
  unfold recordedPlacement override? State.setPlacement
  rw [State.placement?_updateOverride, if_neg (by simpa [EntityKey.item] using hj)]

theorem recordedPlacement_setPlacement_of_misfiled (h : s.Misfiled i) :
    (View.mk c (s.setPlacement c i p)).recordedPlacement i = c.initialPlacement i := by
  obtain ⟨o, ho, hkind⟩ := h
  unfold recordedPlacement override? State.setPlacement
  rw [State.placement?_updateOverride, if_pos rfl]
  have hof : s.overrideOf (.item i) = some o := by simp [State.overrideOf, ho]
  rw [hof]
  cases o with
  | item p d => exact absurd rfl hkind
  | _ => rfl

theorem recordedPlacement_setPlacement_self (h : ¬s.Misfiled i) :
    (View.mk c (s.setPlacement c i p)).recordedPlacement i = p := by
  unfold recordedPlacement override? State.setPlacement
  rw [State.placement?_updateOverride, if_pos rfl]
  obtain ⟨q, d, hof⟩ : ∃ q d, s.overrideOf (.item i) = some (.item q d) := by
    cases ho : s.overrides.get? (.item i) with
    | none => exact ⟨none, none, by simp [State.overrideOf, ho, EntityKey.item, Override.empty?]⟩
    | some o =>
      have hkind : o.kind = .item := by
        by_contra hkind
        exact h ⟨o, ho, hkind⟩
      obtain ⟨q, d, rfl⟩ := Override.eq_item hkind
      exact ⟨q, d, by simp [State.overrideOf, ho]⟩
  rw [hof]
  exact State.getD_differing _ _

/-- An item is where it is on record, unless it is carried or on record as that. -/
theorem placement_eq_iff (hcarried : p ≠ .carried) (hlimbo : p ≠ .limbo) :
    (View.mk c s).placement i = p ↔
      s.hasItem i = false ∧ (View.mk c s).recordedPlacement i = p := by
  unfold placement
  cases s.hasItem i with
  | true => simp [hcarried.symm]
  | false =>
    cases (View.mk c s).recordedPlacement i with
    | carried => simp [hcarried.symm, hlimbo.symm]
    | _ => simp

/-- An item lies where it is on record, unless it is carried. -/
theorem lies_iff {l : EntityId} :
    (View.mk c s).placement i = .location l ↔
      s.hasItem i = false ∧ (View.mk c s).recordedPlacement i = .location l :=
  placement_eq_iff nofun nofun

theorem placement_updateOverride (hchange : ∀ o, (change o).placement? = o.placement?) :
    (View.mk c (s.updateOverride key change)).placement i = (View.mk c s).placement i := by
  obtain ⟨_, hsame⟩ := State.exists_updateOverride_eq s key change
  exact placement_congr (by rw [hsame]; rfl) (recordedPlacement_updateOverride hchange)

theorem hasItem_putItem : (s.putItem c i p).hasItem j = (s.hasItem j && j != i) := by
  obtain ⟨_, hsame⟩ := State.exists_updateOverride_eq (s.removeItem i) (.item i)
    (·.withPlacement (State.differing (some (c.initialPlacement i)) p))
  have hput : s.putItem c i p = _ := hsame
  rw [hput, Bool.eq_iff_iff]
  simp [State.hasItem, State.removeItem]

theorem hasItem_takeItem : (s.takeItem c i).hasItem j = (s.hasItem j || j == i) := by
  obtain ⟨_, hsame⟩ := State.exists_updateOverride_eq (s.addItem i) (.item i)
    (·.withPlacement (State.differing (some (c.initialPlacement i)) .carried))
  have htake : s.takeItem c i = _ := hsame
  rw [htake, State.addItem_eq, Bool.eq_iff_iff]
  by_cases hi : i ∈ s.inventory
  · simp [State.hasItem, hi]
    grind
  · simp [State.hasItem, hi]

theorem lies_putItem_iff {l : EntityId} :
    (View.mk c (s.putItem c i p)).placement i = .location l ↔
      (¬s.Misfiled i ∧ p = .location l) ∨ (s.Misfiled i ∧ c.initialPlacement i = .location l) := by
  rw [lies_iff, hasItem_putItem]
  have hfiled : (s.removeItem i).Misfiled i ↔ s.Misfiled i := Iff.rfl
  unfold State.putItem
  by_cases h : s.Misfiled i
  · rw [recordedPlacement_setPlacement_of_misfiled (hfiled.2 h)]
    simp [h]
  · rw [recordedPlacement_setPlacement_self (fun hm => h (hfiled.1 hm))]
    simp [h]

theorem placement_putItem_of_ne (hj : j ≠ i) :
    (View.mk c (s.putItem c i p)).placement j = (View.mk c s).placement j :=
  placement_congr (by simp [hasItem_putItem, hj]) (recordedPlacement_setPlacement_of_ne hj)

end View

/-! ### What an effect brings about -/

/-- The player parts with the item by the effect, and it goes back to where it was at first, since
its record has no placement to set. -/
structure State.Strays (c : Catalog) (s : State) (e : Effect) (i l : EntityId) : Prop where
  parted : e.parts? = some i ∨ ∃ k, e = .placeItem i k
  carried : s.hasItem i = true
  misfiled : s.Misfiled i
  home : c.initialPlacement i = .location l

section

variable {c : Catalog} {s : State} {e : Effect} {i j l : EntityId} {p : Placement}

/-- An item that lies somewhere after it was put was put there, or lay there, or strays. -/
theorem View.lies_of_putItem (h : (View.mk c (s.putItem c i p)).placement j = .location l) :
    (View.mk c s).placement j = .location l ∨
      j = i ∧ (p = .location l ∨
        s.hasItem i = true ∧ s.Misfiled i ∧ c.initialPlacement i = .location l) := by
  by_cases hj : j = i
  · subst hj
    rcases lies_putItem_iff.1 h with ⟨-, hp⟩ | ⟨hmisfiled, hhome⟩
    · exact .inr ⟨rfl, .inl hp⟩
    · cases hcarried : s.hasItem j with
      | true => exact .inr ⟨rfl, .inr ⟨rfl, hmisfiled, hhome⟩⟩
      | false =>
        exact .inl (lies_iff.2 ⟨hcarried, (recordedPlacement_of_misfiled hmisfiled).trans hhome⟩)
  · rw [placement_putItem_of_ne hj] at h
    exact .inl h

theorem View.lies_or_strays_of_putItem (hparted : e.parts? = some i ∨ ∃ k, e = .placeItem i k)
    (hp : ∀ l, p = .location l → e = .placeItem i l)
    (h : (View.mk c (s.putItem c i p)).placement j = .location l) :
    (View.mk c s).placement j = .location l ∨ e = .placeItem j l ∨ s.Strays c e j l := by
  rcases View.lies_of_putItem h with h | ⟨rfl, h | ⟨hcarried, hmisfiled, hhome⟩⟩
  · exact .inl h
  · exact .inr (.inl (hp l h))
  · exact .inr (.inr ⟨hparted, hcarried, hmisfiled, hhome⟩)

theorem View.lies_of_change (h : (View.mk c (s.change c e)).placement j = .location l) :
    (View.mk c s).placement j = .location l ∨ e = .placeItem j l ∨ s.Strays c e j l := by
  cases e with
  | setFlag | clearFlag | movePlayer | completeSpoke => exact .inl h
  | giveItem i =>
    obtain ⟨hcarried, hrecorded⟩ := lies_iff.1 h
    rw [show s.change c (.giveItem i) = s.takeItem c i from rfl, hasItem_takeItem] at hcarried
    obtain ⟨hcarried, hj⟩ := Bool.or_eq_false_iff.1 hcarried
    have hj : j ≠ i := by simpa using hj
    have hsame := recordedPlacement_setPlacement_of_ne (c := c) (s := s.addItem i) (p := .carried)
      hj
    have hadd : (View.mk c (s.addItem i)).recordedPlacement j =
        (View.mk c s).recordedPlacement j := by
      rw [State.addItem_eq]
      rfl
    exact .inl (lies_iff.2 ⟨hcarried, (hsame.trans hadd).symm.trans hrecorded⟩)
  | removeItem i =>
    change (View.mk c (if s.hasItem i = true then s.putItem c i .limbo else s)).placement j = _ at h
    split at h
    · exact lies_or_strays_of_putItem (.inl rfl) (fun _ hp => by cases hp) h
    · exact .inl h
  | destroyItem i =>
    exact lies_or_strays_of_putItem (p := .destroyed) (.inl rfl) (fun _ hp => by cases hp) h
  | placeItem i k =>
    exact lies_or_strays_of_putItem (p := .location k) (.inr ⟨k, rfl⟩)
      (fun l hl => by cases hl; rfl) h
  | handItem i q =>
    exact lies_or_strays_of_putItem (p := .holder q) (.inl rfl) (fun _ hp => by cases hp) h
  | moveCharacter | lockExit | hideExit =>
    exact .inl ((placement_updateOverride fun o => by cases o <;> rfl).symm.trans h)
  | describe key text =>
    change (View.mk c (s.describe c key text)).placement j = _ at h
    unfold State.describe at h
    split at h
    · exact .inl ((placement_updateOverride fun o => by cases o <;> rfl).symm.trans h)
    · exact .inl h
  | adjustCounter p n d | setCounter p n d =>
    obtain ⟨_, hsame⟩ := State.exists_setCounter_eq (c := c) (s := s) p n _
    exact .inl ((congrArg (fun t => (View.mk c t).placement j) hsame).symm.trans h)
  | advanceAct act =>
    obtain ⟨_, _, hsame⟩ := State.exists_advanceTo_eq (c := c) (s := s) act
    exact .inl ((congrArg (fun t => (View.mk c t).placement j) hsame).symm.trans h)

/-- What strays does lie where it was at first. -/
theorem State.Strays.lies (h : s.Strays c e i l) :
    (View.mk c (s.change c e)).placement i = .location l := by
  have hput : ∀ p, (View.mk c (s.putItem c i p)).placement i = .location l := fun p =>
    View.lies_putItem_iff.2 (.inr ⟨h.misfiled, h.home⟩)
  rcases h.parted with hparts | ⟨k, rfl⟩
  · cases e with
    | removeItem j =>
      obtain rfl : j = i := Option.some.inj hparts
      show (View.mk c (if s.hasItem j = true then s.putItem c j .limbo else s)).placement j = _
      rw [if_pos h.carried]
      exact hput .limbo
    | destroyItem j =>
      obtain rfl : j = i := Option.some.inj hparts
      exact hput .destroyed
    | handItem j q =>
      obtain rfl : j = i := Option.some.inj hparts
      exact hput (.holder q)
    | _ => cases hparts
  · exact hput (.location k)

/-! #### Flags and counters -/

namespace State

variable {key : EntityKey} {change : Override → Override} {item p act : EntityId} {n : String}
  {x : Count}

@[simp] theorem flags_updateOverride : (s.updateOverride key change).flags = s.flags := by
  obtain ⟨_, hsame⟩ := exists_updateOverride_eq s key change
  rw [hsame]

@[simp] theorem counters_updateOverride : (s.updateOverride key change).counters = s.counters := by
  obtain ⟨_, hsame⟩ := exists_updateOverride_eq s key change
  rw [hsame]

@[simp] theorem flags_addItem : (s.addItem item).flags = s.flags := by rw [addItem_eq]

@[simp] theorem counters_addItem : (s.addItem item).counters = s.counters := by rw [addItem_eq]

@[simp] theorem flags_setCounter : (s.setCounter c p n x).flags = s.flags := by
  obtain ⟨_, hsame⟩ := exists_setCounter_eq (c := c) (s := s) p n x
  rw [hsame]

@[simp] theorem flags_advanceTo : (s.advanceTo c act).flags = s.flags := by
  obtain ⟨_, _, hsame⟩ := exists_advanceTo_eq (c := c) (s := s) act
  rw [hsame]

@[simp] theorem counters_advanceTo : (s.advanceTo c act).counters = s.counters := by
  obtain ⟨_, _, hsame⟩ := exists_advanceTo_eq (c := c) (s := s) act
  rw [hsame]

theorem flags_change (hset : ∀ n x, e ≠ .setFlag n x) (hclear : ∀ n, e ≠ .clearFlag n) :
    (s.change c e).flags = s.flags := by
  cases e with
  | setFlag n x => exact absurd rfl (hset n x)
  | clearFlag n => exact absurd rfl (hclear n)
  | removeItem i =>
    by_cases hi : s.hasItem i = true <;>
      simp [State.change, hi, putItem, setPlacement, removeItem]
  | describe key text =>
    by_cases hk : key.kind.overridable = true <;> simp [State.change, describe, hk]
  | _ =>
    simp [State.change, putItem, takeItem, setPlacement, removeItem, setLocation, moveCharacter,
      setLocked, setHidden, State.completeSpoke]

theorem counters_change (hadjust : ∀ p n d, e ≠ .adjustCounter p n d)
    (hset : ∀ p n x, e ≠ .setCounter p n x) : (s.change c e).counters = s.counters := by
  cases e with
  | adjustCounter p n d => exact absurd rfl (hadjust p n d)
  | setCounter p n x => exact absurd rfl (hset p n x)
  | removeItem i =>
    by_cases hi : s.hasItem i = true <;>
      simp [State.change, hi, putItem, setPlacement, removeItem]
  | describe key text =>
    by_cases hk : key.kind.overridable = true <;> simp [State.change, describe, hk]
  | _ =>
    simp [State.change, putItem, takeItem, setPlacement, removeItem, setLocation, moveCharacter,
      setLocked, setHidden, State.completeSpoke, setFlag, clearFlag]

theorem get?_flags_of_change {y : FlagValue} (h : (s.change c e).flags.get? n = some y) :
    s.flags.get? n = some y ∨ e = .setFlag n y := by
  cases e with
  | setFlag m y' =>
    change (s.flags.insert m y').get? n = some y at h
    rw [SortedMap.get?_insert] at h
    split at h
    · rename_i hn
      cases h
      exact .inr (by rw [hn])
    · exact .inl h
  | clearFlag m =>
    change (s.flags.erase m).get? n = some y at h
    rw [SortedMap.get?_erase] at h
    split at h
    · cases h
    · exact .inl h
  | _ =>
    rw [flags_change (by simp) (by simp)] at h
    exact .inl h

theorem location_of_change (c : Catalog) (s : State) (e : Effect) :
    (s.change c e).location = s.location ∨ e = .movePlayer (s.change c e).location := by
  obtain ⟨_, _, _, _, _, hsame⟩ := s.exists_change_eq (c := c) e
  rw [hsame]
  cases e with
  | movePlayer l => exact .inr rfl
  | _ => exact .inl rfl

theorem mem_completedSpokes_of_change {d : EntityId}
    (h : (s.change c e).completedSpokes.contains d = true) :
    s.completedSpokes.contains d = true ∨ e = .completeSpoke d := by
  obtain ⟨_, _, _, _, _, hsame⟩ := s.exists_change_eq (c := c) e
  rw [hsame] at h
  cases e with
  | completeSpoke x =>
    rcases SortedSet.mem_insert.1 (SortedSet.mem_iff_contains.2 h) with rfl | h
    · exact .inr rfl
    · exact .inl h
  | _ => exact .inl h

theorem counter_of_change (c : Catalog) (s : State) (e : Effect) (p : EntityId) (n : String) :
    (View.mk c (s.change c e)).counter p n = (View.mk c s).counter p n ∨
      (∃ d, e = .adjustCounter p n d ∧
        (View.mk c (s.change c e)).counter p n = ((View.mk c s).counter p n).addSat d) ∨
      e = .setCounter p n ((View.mk c (s.change c e)).counter p n) := by
  cases e with
  | adjustCounter q m d =>
    have hcounter := View.counter_setCounter (c := c) (s := s) q p m n
      (((View.mk c s).counter q m).addSat d)
    by_cases hkey : p = q ∧ n = m
    · obtain ⟨rfl, rfl⟩ := hkey
      rw [if_pos ⟨rfl, rfl⟩] at hcounter
      exact .inr (.inl ⟨d, rfl, hcounter⟩)
    · rw [if_neg hkey] at hcounter
      exact .inl hcounter
  | setCounter q m x =>
    have hcounter := View.counter_setCounter (c := c) (s := s) q p m n x
    by_cases hkey : p = q ∧ n = m
    · obtain ⟨rfl, rfl⟩ := hkey
      rw [if_pos ⟨rfl, rfl⟩] at hcounter
      exact .inr (.inr (congrArg _ hcounter.symm))
    · rw [if_neg hkey] at hcounter
      exact .inl hcounter
  | _ =>
    refine .inl ?_
    unfold View.counter counterOverride?
    dsimp only
    rw [counters_change (by simp) (by simp)]

theorem mem_reachedActs_of_change {a : EntityId} (h : a ∈ (s.change c e).reachedActs) :
    a ∈ s.reachedActs ∨ ∃ act i j, e = .advanceAct act ∧ c.acts.position? a = some i ∧
      c.acts.position? act = some j ∧ i ≤ j := by
  obtain ⟨act, rfl⟩ | he := e.eq_advanceAct_or_ne
  · change a ∈ (s.advanceTo c act).reachedActs at h
    cases hi : c.acts.position? s.act with
    | none =>
      unfold advanceTo at h
      rw [hi] at h
      exact .inl h
    | some i =>
      cases hj : c.acts.position? act with
      | none =>
        unfold advanceTo at h
        rw [hi, hj] at h
        exact .inl h
      | some j =>
        rw [advanceTo_eq act hi hj] at h
        split at h
        · rcases List.mem_append.1 h with h | h
          · exact .inl h
          · obtain ⟨k, hk⟩ := List.mem_iff_getElem?.1 (List.mem_filter.1 h).1
            rw [List.getElem?_drop, List.getElem?_take] at hk
            split at hk
            · exact .inr ⟨act, i + 1 + k, j, rfl, Table.position?_of_getElem? hk, hj, by omega⟩
            · cases hk
        · exact .inl h
  · obtain ⟨_, _, _, hsame⟩ := s.exists_change_eq_of_ne_advanceAct (c := c) he
    rw [hsame] at h
    exact .inl h

end State

end

/-! ### The simulation -/

/-- The outlook accepts whatever the state satisfies. -/
def Outlook.Accepts (v : View) (o : Outlook) (s : State) : Prop :=
  ∀ x, (View.mk v.catalog s).holds x = true → o.may v x = true

namespace Outlook

variable {v : View} {o : Outlook} {s t : State} {e : Effect} {a : Atom}

theorem accepts_iff :
    o.Accepts v s ↔ ∀ a, (View.mk v.catalog s).holdsAtom a = true → o.mayAtom v a = true :=
  ⟨fun h a ha => h (.atom a) ha, fun h x hx => Condition.possible_of_eval x (fun a _ => h a) hx⟩

theorem Attainable.change {p : EntityId} {n : String}
    (h : o.Attainable v p n ((View.mk v.catalog s).counter p n)) (he : o.Foresees v e) :
    o.Attainable v p n ((View.mk v.catalog (s.change v.catalog e)).counter p n) := by
  rcases State.counter_of_change v.catalog s e p n with hsame | ⟨d, rfl, hsum⟩ | hset
  · rwa [hsame]
  · rw [hsum]
    exact h.addSat he
  · refine .of_start (.inr (he _ ?_))
    generalize (View.mk v.catalog (s.change v.catalog e)).counter p n = x at hset
    rw [hset]
    exact List.mem_cons_self

/-- But for spokes, the outlook accepts what holds after an effect once it has taken the effect in,
if it accepts it of the items that stray. -/
theorem Accepts.answer (hs : o.Accepts v s)
    (hdestroyed : ∀ i, v.placement i = .destroyed →
      (View.mk v.catalog s).placement i = .destroyed)
    (hallows : s.obstacle? v.catalog e = none)
    (hstrays : ∀ i l, s.Strays v.catalog e i l → (o.absorb v e).mayAtom v (.itemAt i l) = true)
    (ha : a.spoke? = none) {f : EntityId → Bool}
    (h : (View.mk v.catalog (s.change v.catalog e)).answer f a = true) :
    (o.absorb v e).mayAtom v a = true := by
  have hbelow : o.Below (o.absorb v e) := fun _ => knows_absorb
  have hforesees := foresees_absorb v o e
  -- What held before is accepted, and so is what the outlook has just learned.
  have hold : ∀ b, (View.mk v.catalog s).holdsAtom b = true → (o.absorb v e).mayAtom v b = true :=
    fun b hb => hbelow.mayAtom (accepts_iff.1 hs b hb)
  have hnew : ∀ {b}, (o.absorb v e).mayLater v (fun s => (o.absorb v e).spokes.contains s ||
      (v.catalog.spokes.get? s).any fun d => d.condition.possible ((o.absorb v e).mayInSpoke v)) b =
        true → (o.absorb v e).mayAtom v b = true := fun hb => Bool.or_eq_true_iff.2 (.inr hb)
  cases a with
  | flag n =>
    obtain ⟨x, hx, htruthy⟩ := (Option.any_eq_true _ _).1 h
    rcases State.get?_flags_of_change hx with hx | rfl
    · exact hold _ ((Option.any_eq_true _ _).2 ⟨x, hx, htruthy⟩)
    · exact hnew (hforesees (.truthy n) (by simp [View.facts, htruthy]))
  | flagEquals n x =>
    rcases State.get?_flags_of_change (by simpa [View.answer] using h) with hx | rfl
    · exact hold _ (by simp [View.holdsAtom, View.answer, hx])
    · exact hnew (hforesees (.value n x) List.mem_cons_self)
  | hasItem i =>
    obtain ⟨_, _, _, _, _, hsame⟩ := s.exists_change_eq (c := v.catalog) e
    have hi : i ∈ (s.change v.catalog e).inventory := List.contains_iff_mem.1 h
    rw [hsame] at hi
    rcases Effect.mem_carry_iff.1 hi with rfl | ⟨hi, -⟩
    · have hthere : (View.mk v.catalog s).placement i ≠ .destroyed := by
        intro hgone
        simp [State.obstacle?, hgone] at hallows
      have hne : v.placement i ≠ .destroyed := fun hgone => hthere (hdestroyed i hgone)
      exact hnew (hforesees (.gain i) (by simp [View.facts, hne]))
    · exact hold _ (List.contains_iff_mem.2 hi)
  | itemAt i l =>
    have hl : (View.mk v.catalog (s.change v.catalog e)).placement i = .location l := by
      simpa [View.answer, Placement.isIn] using h
    rcases View.lies_of_change hl with hl | rfl | hl
    · exact hold _ (by simp [View.holdsAtom, View.answer, Placement.isIn, hl])
    · exact hnew (Bool.or_eq_true_iff.2 (.inl (hforesees (.place i l) List.mem_cons_self)))
    · exact hstrays i l hl
  | «at» l =>
    have hl : (s.change v.catalog e).location = l := by simpa [View.answer] using h
    rcases State.location_of_change v.catalog s e with hsame | he
    · exact hold _ (by simp [View.holdsAtom, View.answer, ← hsame, hl])
    · rw [hl] at he
      exact hnew (hforesees (.visit l) (by rw [he]; exact List.mem_cons_self))
  | counter p n cmp x =>
    have hbefore : (o.absorb v e).Attainable v p n ((View.mk v.catalog s).counter p n) :=
      hbelow.attainable (attainable_of_may (accepts_iff.1 hs _ (by
        simp [View.holdsAtom, View.answer, Comparison.holds])))
    exact hnew (counterMay_iff_attainable.2 ⟨_, hbefore.change hforesees, h⟩)
  | spoke d => cases ha
  | beatFired b =>
    obtain ⟨_, _, _, _, _, hsame⟩ := s.exists_change_eq (c := v.catalog) e
    rw [hsame] at h
    exact hold (.beatFired b) h
  | actReached act =>
    rcases State.mem_reachedActs_of_change (List.contains_iff_mem.1 h) with
      h | ⟨forward, i, j, rfl, hi, hj, hij⟩
    · exact hold _ (List.contains_iff_mem.2 h)
    · have hfurthest : j ≤ (o.absorb v (.advanceAct forward)).furthestAct :=
        of_decide_eq_true (hforesees (.act j) (by simp [View.facts, hj]))
      exact hnew ((Option.any_eq_true _ _).2 ⟨i, hi, decide_eq_true (hij.trans hfurthest)⟩)
  | interactionUsed d =>
    obtain ⟨_, _, _, _, _, hsame⟩ := s.exists_change_eq (c := v.catalog) e
    rw [hsame] at h
    exact hold (.interactionUsed d) h

theorem mayInSpoke_of_mayAtom (ha : a.spoke? = none) (h : o.mayAtom v a = true) :
    o.mayInSpoke v a = true := by
  cases a with
  | spoke d => cases ha
  | _ => exact h

theorem Accepts.absorb (hc : v.catalog.Accepted) (hs : o.Accepts v s)
    (hdestroyed : ∀ i, v.placement i = .destroyed →
      (View.mk v.catalog s).placement i = .destroyed)
    (hallows : s.obstacle? v.catalog e = none)
    (hstrays : ∀ i l, s.Strays v.catalog e i l →
      (o.absorb v e).mayAtom v (.itemAt i l) = true) :
    (o.absorb v e).Accepts v (s.change v.catalog e) := by
  have hbelow : o.Below (o.absorb v e) := fun _ => knows_absorb
  have hforesees := foresees_absorb v o e
  refine accepts_iff.2 fun a h => ?_
  cases ha : a.spoke? with
  | none => exact hs.answer hdestroyed hallows hstrays ha h
  | some d =>
    obtain rfl := Atom.spoke?_eq_some_iff.1 ha
    rcases Bool.or_eq_true_iff.1 h with hrecorded | hholds
    · rcases State.mem_completedSpokes_of_change hrecorded with hrecorded | rfl
      · exact hbelow.mayAtom (accepts_iff.1 hs (.spoke d) (Bool.or_eq_true_iff.2 (.inl hrecorded)))
      · have hspoke := hforesees (.spoke d) List.mem_cons_self
        exact Bool.or_eq_true_iff.2 (.inr (Bool.or_eq_true_iff.2 (.inl hspoke)))
    · obtain ⟨x, hx, hcondition⟩ := (Option.any_eq_true _ _).1 hholds
      refine Bool.or_eq_true_iff.2 (.inr (Bool.or_eq_true_iff.2 (.inr ?_)))
      refine (Option.any_eq_true _ _).2 ⟨x, hx, Condition.possible_of_eval _ ?_ hcondition⟩
      intro b hb hbholds
      have hnone := hc.spoke_atoms (Table.mem_of_get? hx) hb
      exact mayInSpoke_of_mayAtom hnone (hs.answer hdestroyed hallows hstrays hnone hbholds)

/-- To take in an effect simulates applying it: an outlook that accepts what the state satisfies
accepts what the state satisfies after the effect. This holds of every state whose overrides are of
the kinds of their keys; of any other exactly if the outlook accepts where the items lie that
stray. -/
theorem absorb_simulates (hc : v.catalog.Accepted) (hs : o.Accepts v s)
    (hdestroyed : ∀ i, v.placement i = .destroyed →
      (View.mk v.catalog s).placement i = .destroyed)
    (h : s.apply v.catalog e = .ok t) :
    (s.KindsMatch → (o.absorb v e).Accepts v t) ∧
    ((o.absorb v e).Accepts v t ↔
      ∀ i l, s.Strays v.catalog e i l → (o.absorb v e).mayAtom v (.itemAt i l) = true) := by
  obtain ⟨-, hallows, rfl⟩ := State.apply_eq_ok_iff.1 h
  have hiff : (o.absorb v e).Accepts v (s.change v.catalog e) ↔
      ∀ i l, s.Strays v.catalog e i l → (o.absorb v e).mayAtom v (.itemAt i l) = true := by
    refine ⟨fun haccepts i l hi => accepts_iff.1 haccepts _ ?_,
      hs.absorb hc hdestroyed hallows⟩
    simp [View.holdsAtom, View.answer, Placement.isIn, hi.lies]
  exact ⟨fun hkinds => hiff.2 fun i l hi => absurd hi.misfiled (hkinds.not_misfiled i), hiff⟩

/-- An outlook on a state accepts whatever that state satisfies. -/
theorem accepts_self : o.Accepts v v.state :=
  accepts_iff.2 fun _ ha => Bool.or_eq_true_iff.2 (.inl ha)

end Outlook

/-- A hall and a dock without a way between them. The lamp of the dock may be thrown away in the
hall, and has to lie on the dock in the end. -/
def wharfDoc : WorldDocument where
  world := some { title := "Wharf" }
  start := some { location := "hall" }
  locations := [{ id := "hall", name := "Hall" }, { id := "dock", name := "Dock" }]
  items := [{ id := "lamp", name := "lamp", location := some "dock" }]
  interactions := [{ id := "discard", triggers := ["discard"], effects := [.removeItem "lamp"] }]
  acts := [{ id := "night", locations := ["hall", "dock"] }]
  victory := [{ id := "lit", condition := .atom (.itemAt "lamp" "dock") }]

def wharf : Catalog := .draft wharfDoc

theorem wharf_accepted : wharf.Accepted :=
  ⟨wharfDoc, Catalog.ofDocument_eq_ok_iff.2 ⟨by decide, rfl⟩⟩

/-- The lamp is brought to the hall, and its record says so. -/
def lampInHall : State :=
  { State.initial wharf with
    inventory := ["lamp"]
    overrides := .ofList [(.item "lamp", .item (some .carried) (some "Bright."))] }

/-- The lamp is brought to the hall, and its record is one of a location. -/
def lampMisfiled : State :=
  { State.initial wharf with
    inventory := ["lamp"]
    overrides := .ofList [(.item "lamp", .location (some "Bright."))] }

/-- Where the record of the lamp is one of an item, nothing that holds after it is thrown away is
missed. -/
theorem lamp_discarded :
    ∃ t, lampInHall.apply wharf (.removeItem "lamp") = .ok t ∧
      ((Outlook.explore ⟨wharf, lampInHall⟩).absorb ⟨wharf, lampInHall⟩
        (.removeItem "lamp")).Accepts ⟨wharf, lampInHall⟩ t := by
  obtain ⟨t, ht⟩ : ∃ t, lampInHall.apply wharf (.removeItem "lamp") = .ok t := ⟨_, rfl⟩
  have hkinds : lampInHall.KindsMatch := by
    intro key x hx
    have hmem : (key, x) ∈
        [(EntityKey.item "lamp", Override.item (some .carried) (some "Bright."))] :=
      SortedMap.get?_eq_some_iff.1 hx
    obtain ⟨rfl, rfl⟩ := Prod.mk.inj (List.mem_singleton.1 hmem)
    rfl
  exact ⟨t, ht, (Outlook.absorb_simulates (v := ⟨wharf, lampInHall⟩) wharf_accepted
    Outlook.accepts_self (fun _ h => h) ht).1 hkinds⟩

/-- Of a state that a save is restored to, an outlook may miss what an effect brings about: the lamp
that is thrown away lies on the dock again. -/
theorem lamp_back_on_dock :
    ¬∀ (v : View) (o : Outlook) (save : Save) (s t : State) (e : Effect),
      v.catalog.Accepted → save.restore v.catalog = .ok s → o.Accepts v s →
        (∀ i, v.placement i = .destroyed → (View.mk v.catalog s).placement i = .destroyed) →
        s.apply v.catalog e = .ok t → (o.absorb v e).Accepts v t := by
  intro h
  obtain ⟨t, ht, hback⟩ : ∃ t, lampMisfiled.apply wharf (.removeItem "lamp") = .ok t ∧
      (View.mk wharf t).holds (.atom (.itemAt "lamp" "dock")) = true :=
    ⟨_, rfl, by decide +kernel⟩
  have hrestored : (Save.capture .zero .epoch wharf lampMisfiled).restore wharf =
      .ok lampMisfiled := by decide +kernel
  have hmay := h ⟨wharf, lampMisfiled⟩ (.explore ⟨wharf, lampMisfiled⟩) _ lampMisfiled t _
    wharf_accepted hrestored Outlook.accepts_self (fun _ h => h) ht _ hback
  exact absurd hmay (by decide +kernel)

end Storyworld
