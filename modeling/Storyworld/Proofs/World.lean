import Mathlib.Logic.Function.Basic
import Storyworld.Proofs.Overrides

/-!
# The dense world

A `World` holds every field of every entity outright, where the store holds only what differs from
the authored world. `World.of` reads a state as a world, and `World.after` is what an effect makes
of one: the field it names takes the new value and all else stays. `of_change` says that the change
of the store, read as a world, is that of the world.
-/

namespace Storyworld

/-- What is so in a session, field by field. What is not declared has no text and stands nowhere. -/
@[ext]
structure World where
  location : EntityId
  inventory : List EntityId
  flags : String → Option FlagValue
  placement : EntityId → Placement
  standing : EntityId → Option EntityId
  counter : EntityId → String → Count
  locked : EntityId → Option Bool
  hidden : EntityId → Option Bool
  text : EntityKey → Option String
  act : EntityId
  reachedActs : List EntityId
  spokes : EntityId → Bool

namespace World

/-- The world that a state stands for. -/
def of (c : Catalog) (s : State) : World where
  location := s.location
  inventory := s.inventory
  flags := s.flags.get?
  placement := (View.mk c s).placement
  standing := (View.mk c s).standing?
  counter := (View.mk c s).counter
  locked := (View.mk c s).locked?
  hidden := (View.mk c s).hidden?
  text := (View.mk c s).text?
  act := s.act
  reachedActs := s.reachedActs
  spokes := s.completedSpokes.contains

def put (w : World) (item : EntityId) (p : Placement) : World :=
  { w with
    inventory := w.inventory.filter (· != item)
    placement := Function.update w.placement item p }

def count (w : World) (character : EntityId) (name : String) (x : Count) : World :=
  { w with
    counter := Function.update w.counter character (Function.update (w.counter character) name x) }

def advance (c : Catalog) (w : World) (act : EntityId) : World :=
  match c.acts.position? w.act, c.acts.position? act with
  | some i, some j =>
    if i < j then
      let passed := ((c.acts.toList.map (·.id)).take (j + 1)).drop (i + 1)
      { w with act, reachedActs := w.reachedActs ++ passed.filter (· ∉ w.reachedActs) }
    else w
  | _, _ => w

def after (c : Catalog) (w : World) : Effect → World
  | .setFlag flag value => { w with flags := Function.update w.flags flag (some value) }
  | .clearFlag flag => { w with flags := Function.update w.flags flag none }
  | .giveItem item =>
    { w with
      inventory := if item ∈ w.inventory then w.inventory else w.inventory ++ [item]
      placement := Function.update w.placement item .carried }
  | .removeItem item => if item ∈ w.inventory then w.put item .limbo else w
  | .destroyItem item => w.put item .destroyed
  | .placeItem item location => w.put item (.location location)
  | .handItem item character => w.put item (.holder character)
  | .movePlayer location => { w with location }
  | .moveCharacter character location =>
    { w with standing := Function.update w.standing character (some location) }
  | .adjustCounter character name d =>
    w.count character name ((w.counter character name).addSat d)
  | .setCounter character name x => w.count character name x
  | .lockExit exit b => { w with locked := Function.update w.locked exit (some b) }
  | .hideExit exit b => { w with hidden := Function.update w.hidden exit (some b) }
  | .describe key text => { w with text := Function.update w.text key (some text) }
  | .completeSpoke spoke => { w with spokes := Function.update w.spokes spoke true }
  | .advanceAct act => w.advance c act

/-- Whether an effect finds its item in play and a description to replace. -/
def Allows (w : World) : Effect → Prop
  | .giveItem item | .placeItem item _ | .handItem item _ => w.placement item ≠ .destroyed
  | .describe key _ => key.kind.overridable = true
  | _ => True

instance (w : World) : (e : Effect) → Decidable (w.Allows e)
  | .giveItem _ | .placeItem _ _ | .handItem _ _ => inferInstanceAs (Decidable (_ ≠ _))
  | .describe _ _ => inferInstanceAs (Decidable (_ = _))
  | .setFlag _ _ | .clearFlag _ | .removeItem _ | .destroyItem _ | .movePlayer _
  | .moveCharacter _ _ | .adjustCounter _ _ _ | .setCounter _ _ _ | .lockExit _ _
  | .hideExit _ _ | .completeSpoke _ | .advanceAct _ => isTrue trivial

/-- Updates the world by an effect whose entities are all declared. -/
def update (c : Catalog) (w : World) (e : Effect) : Option World :=
  if (∀ key ∈ e.references, c.contains key = true) ∧ w.Allows e then some (w.after c e) else none

end World

/-! ### Setters -/

/-- An effect is applied when all that it names is declared and nothing is in its way. -/
theorem State.apply_eq_ok_iff {c : Catalog} {s t : State} {e : Effect} :
    s.apply c e = .ok t ↔
      (∀ key ∈ e.references, c.contains key = true) ∧ s.obstacle? c e = none ∧
        t = s.change c e := by
  unfold State.apply
  cases hf : e.references.find? fun key => !c.contains key with
  | some key =>
    refine ⟨(nomatch ·), fun ⟨h, _⟩ => ?_⟩
    have := h key (List.mem_of_find?_eq_some hf)
    simpa [this] using List.find?_some hf
  | none =>
    have hdeclared : ∀ key ∈ e.references, c.contains key = true := by
      simpa using hf
    cases ho : s.obstacle? c e with
    | some o => exact ⟨(nomatch ·), fun ⟨_, h, _⟩ => nomatch h⟩
    | none =>
      refine ⟨fun h => ⟨hdeclared, rfl, ?_⟩, fun ⟨_, _, h⟩ => ?_⟩
      · cases h; rfl
      · rw [h]

section
variable {c : Catalog} {s : State}

theorem View.placement_congr {v w : View} {i : EntityId}
    (hcarried : v.state.hasItem i = w.state.hasItem i)
    (hrecorded : v.recordedPlacement i = w.recordedPlacement i) :
    v.placement i = w.placement i := by
  unfold View.placement
  rw [hcarried, hrecorded]

theorem View.placement_of_carried {v : View} {i : EntityId} (h : v.state.hasItem i = true) :
    v.placement i = .carried := by
  unfold View.placement
  rw [if_pos h]

theorem View.placement_of_recorded {v : View} {i : EntityId} (h : v.state.hasItem i = false)
    (hne : v.recordedPlacement i ≠ .carried) : v.placement i = v.recordedPlacement i := by
  unfold View.placement
  rw [h]
  cases hr : v.recordedPlacement i with
  | carried => exact absurd hr hne
  | _ => rfl

theorem View.recordedPlacement_setPlacement (hs : s.KindsMatch) (i j : EntityId) (p : Placement) :
    (View.mk c (s.setPlacement c i p)).recordedPlacement j =
      if j = i then p else (View.mk c s).recordedPlacement j := by
  rw [View.recordedPlacement_eq, View.recordedPlacement_eq, State.setPlacement_eq]
  split
  · rename_i hj
    rw [hj, State.read_set_self (hs.filed _) rfl]
    exact State.getD_differing _ _
  · rename_i hj
    rw [State.read_set_of_ne hs (by simpa using hj)]

theorem View.standing_moveCharacter (hs : s.KindsMatch) {p : EntityId}
    (hp : c.contains (.character p) = true) (q l : EntityId) :
    (View.mk c (s.moveCharacter c p l)).standing? q =
      if q = p then some l else (View.mk c s).standing? q := by
  rw [View.standing_eq, View.standing_eq, State.moveCharacter_eq]
  split
  · rename_i hq
    obtain ⟨d, hd⟩ := Table.contains_iff_exists.1 hp
    rw [hq, State.read_set_self (hs.filed _) rfl, hd]
    exact State.differing_or _ _
  · rename_i hq
    rw [State.read_set_of_ne hs (by simpa using hq)]

theorem View.locked_setLocked (hs : s.KindsMatch) {x : EntityId}
    (hx : c.contains (.exit x) = true) (y : EntityId) (b : Bool) :
    (View.mk c (s.setLocked c x b)).locked? y =
      if y = x then some b else (View.mk c s).locked? y := by
  rw [View.locked_eq, View.locked_eq, State.setLocked_eq]
  split
  · rename_i hy
    obtain ⟨d, hd⟩ := Table.contains_iff_exists.1 hx
    rw [hy, State.read_set_self (hs.filed _) rfl, hd]
    exact congrArg some (State.getD_differing _ _)
  · rename_i hy
    rw [State.read_set_of_ne hs (by simpa using hy)]

theorem View.hidden_setHidden (hs : s.KindsMatch) {x : EntityId}
    (hx : c.contains (.exit x) = true) (y : EntityId) (b : Bool) :
    (View.mk c (s.setHidden c x b)).hidden? y =
      if y = x then some b else (View.mk c s).hidden? y := by
  rw [View.hidden_eq, View.hidden_eq, State.setHidden_eq]
  split
  · rename_i hy
    obtain ⟨d, hd⟩ := Table.contains_iff_exists.1 hx
    rw [hy, State.read_set_self (hs.filed _) rfl, hd]
    exact congrArg some (State.getD_differing _ _)
  · rename_i hy
    rw [State.read_set_of_ne hs (by simpa using hy)]

theorem exists_authoredDescription? {key : EntityKey} (hkind : key.kind.overridable = true)
    (hkey : c.contains key = true) : ∃ t, c.authoredDescription? key = some t := by
  obtain ⟨kind, id⟩ := key
  unfold Catalog.contains at hkey
  unfold Catalog.authoredDescription?
  cases kind with
  | location | item | character | exit =>
    obtain ⟨d, hd⟩ :=
      Table.contains_iff_exists.1 hkey
    exact ⟨d.description, by rw [hd]; rfl⟩
  | _ => cases hkind

theorem View.text_describe (hs : s.KindsMatch) {key : EntityKey}
    (hkind : key.kind.overridable = true) (hkey : c.contains key = true) (k : EntityKey)
    (t : String) :
    (View.mk c (s.describe c key t)).text? k =
      if k = key then some t else (View.mk c s).text? k := by
  have hs' : (s.describe c key t).KindsMatch := by
    rw [State.describe_eq s c hkind]
    exact hs.updateOverride (Override.Facet.description.kind_set _)
  rw [View.text_eq (hs'.filed k), View.text_eq (hs.filed k), State.describe_eq s c hkind]
  split
  · rename_i hk
    obtain ⟨authored, hauthored⟩ := exists_authoredDescription? hkind hkey
    rw [hk, State.read_set_self (hs.filed _) hkind, hauthored]
    exact congrArg some (State.getD_differing _ _)
  · rename_i hk
    rw [State.read_set_of_ne hs hk]

/-! ### Counters -/

theorem State.counterOverride?_setCounter (p q : EntityId) (n m : String) (x : Count) :
    (s.setCounter c p n x).counterOverride? q m =
      if q = p ∧ m = n then State.differing (some (c.authoredCounter p n)) x
      else s.counterOverride? q m := by
  unfold State.setCounter State.differing State.counterOverride?
  by_cases hx : x = c.authoredCounter p n
  · rw [if_pos hx, if_pos (congrArg some hx.symm)]
    cases hown : s.counters.get? p with
    | none =>
      dsimp only
      split
      · rename_i h; rw [h.1, hown]; rfl
      · rfl
    | some own =>
      dsimp only
      by_cases hq : q = p
      · subst hq
        rw [hown]
        split
        · -- No counter of the character is left that differs from the authored one.
          rename_i hrest
          have hnone := SortedMap.get?_of_isEmpty hrest m
          rw [SortedMap.get?_erase] at hnone
          by_cases hm : m = n
          · simp [hm]
          · rw [if_neg hm] at hnone
            simp [hm, hnone]
        · by_cases hm : m = n
          · simp [hm]
          · simp [hm]
      · split <;> simp [hq]
  · rw [if_neg hx, if_neg (fun h => hx (Option.some.inj h).symm)]
    by_cases hq : q = p
    · subst hq
      by_cases hm : m = n
      · simp [hm]
      · cases s.counters.get? q <;> simp [hm]
    · simp [hq]

theorem State.exists_setCounter_eq (p : EntityId) (n : String) (x : Count) :
    ∃ counters, s.setCounter c p n x = { s with counters } := by
  unfold State.setCounter
  split
  · split
    · exact ⟨_, rfl⟩
    · dsimp only
      split
      · exact ⟨_, rfl⟩
      · exact ⟨_, rfl⟩
  · exact ⟨_, rfl⟩

/-- Setting a counter makes no map of counters for another character. -/
theorem State.get?_counters_setCounter {p q : EntityId} {n : String} {x : Count}
    {own : SortedMap String Count} (h : (s.setCounter c p n x).counters.get? q = some own) :
    q = p ∨ ∃ own, s.counters.get? q = some own := by
  by_cases hq : q = p
  · exact .inl hq
  · refine .inr ⟨own, ?_⟩
    unfold State.setCounter at h
    split at h
    · split at h
      · exact h
      · dsimp only at h
        split at h
        · simpa [hq] using h
        · simpa [hq] using h
    · simpa [hq] using h

theorem View.counter_setCounter (p q : EntityId) (n m : String) (x : Count) :
    (View.mk c (s.setCounter c p n x)).counter q m =
      if q = p ∧ m = n then x else (View.mk c s).counter q m := by
  unfold View.counter
  rw [State.counterOverride?_setCounter]
  split
  · rename_i h
    rw [h.1, h.2]
    exact State.getD_differing _ _
  · rfl

/-! ### Acts -/

theorem State.foldl_enterAct (as : List Act) (h : (as.map (·.id)).Nodup) :
    as.foldl (fun s a => s.enterAct a.id) s =
      { s with
        act := (as.map (·.id)).getLast?.getD s.act
        reachedActs := s.reachedActs ++ (as.map (·.id)).filter (· ∉ s.reachedActs) } := by
  induction as generalizing s with
  | nil => simp
  | cons a as ih =>
    obtain ⟨ha, has⟩ := List.nodup_cons.1 h
    rw [List.foldl_cons, ih has]
    unfold State.enterAct
    simp only [List.map_cons, List.getLast?_cons, Option.getD_some, List.filter_cons,
      List.contains_iff_mem]
    by_cases hmem : a.id ∈ s.reachedActs
    · simp [hmem]
    · have hrest : ∀ x ∈ as.map (·.id), decide (x ∉ s.reachedActs ++ [a.id]) =
          decide (x ∉ s.reachedActs) := by
        intro x hx
        have : x ≠ a.id := fun h => ha (by rw [h] at hx; exact hx)
        simp [this]
      simp only [hmem, if_false, not_false_eq_true, decide_true, if_true,
        List.filter_congr hrest, List.append_assoc, List.singleton_append]

theorem Table.getElem?_of_position? {α : Type} [Definition α] {t : Table α} {id : EntityId}
    {i : Nat} (h : t.position? id = some i) : (t.toList.map Definition.id)[i]? = some id := by
  obtain ⟨hi, hid, -⟩ := List.findIdx?_eq_some_iff_getElem.1 h
  simp [hi, by simpa using hid]

theorem Table.position?_of_getElem? {α : Type} [Definition α] {t : Table α} {id : EntityId}
    {i : Nat} (h : (t.toList.map Definition.id)[i]? = some id) : t.position? id = some i := by
  obtain ⟨hi, hid⟩ := List.getElem?_eq_some_iff.1 h
  have hi' : i < t.toList.length := by simpa using hi
  refine List.findIdx?_eq_some_iff_getElem.2 ⟨hi', ?_, fun j hj => ?_⟩
  · simpa using hid
  · have hj' : j < t.toList.length := by omega
    have hne : (t.toList.map Definition.id)[j]? ≠ some id := fun heq =>
      absurd ((List.getElem?_inj hi t.nodup).1 (h.trans heq.symm)) (by omega)
    simpa [hj'] using hne

theorem State.advanceTo_eq {i j : Nat} (act : EntityId) (hi : c.acts.position? s.act = some i)
    (hj : c.acts.position? act = some j) :
    s.advanceTo c act =
      if i < j then
        { s with
          act
          reachedActs := s.reachedActs ++
            (((c.acts.toList.map (·.id)).take (j + 1)).drop (i + 1)).filter (· ∉ s.reachedActs) }
      else s := by
  have hpassed : ((c.acts.toList.drop (i + 1)).take (j - i)).map (·.id) =
      ((c.acts.toList.map (·.id)).take (j + 1)).drop (i + 1) := by
    rw [List.drop_take, List.map_take, List.map_drop]
    congr 1
    omega
  unfold State.advanceTo
  rw [hi, hj]
  dsimp only
  rw [State.foldl_enterAct, hpassed]
  · split
    · rename_i hij
      have hlast :
          (((c.acts.toList.map (·.id)).take (j + 1)).drop (i + 1)).getLast? = some act := by
        have hact : (c.acts.toList.map (·.id))[j]? = some act := Table.getElem?_of_position? hj
        obtain ⟨hlen, -⟩ := List.getElem?_eq_some_iff.1 hact
        rw [List.getLast?_drop, if_neg (by rw [List.length_take]; omega), List.getLast?_take,
          if_neg (by omega), Nat.add_sub_cancel, hact]
        rfl
      rw [hlast]
      rfl
    · rename_i hij
      have hnil : ((c.acts.toList.map (·.id)).take (j + 1)).drop (i + 1) = [] := by
        rw [List.drop_eq_nil_iff, List.length_take]
        omega
      simp [hnil]
  · exact c.acts.nodup.sublist (((List.take_sublist _ _).trans (List.drop_sublist _ _)).map _)

theorem State.exists_advanceTo_eq (act : EntityId) :
    ∃ act' reachedActs, s.advanceTo c act = { s with act := act', reachedActs } := by
  cases hi : c.acts.position? s.act with
  | none => unfold State.advanceTo; rw [hi]; exact ⟨_, _, rfl⟩
  | some i =>
    cases hj : c.acts.position? act with
    | none => unfold State.advanceTo; rw [hi, hj]; exact ⟨_, _, rfl⟩
    | some j =>
      rw [State.advanceTo_eq act hi hj]
      split
      · exact ⟨_, _, rfl⟩
      · exact ⟨_, _, rfl⟩

theorem World.of_advanceTo (act : EntityId) :
    World.of c (s.advanceTo c act) = (World.of c s).advance c act := by
  unfold World.advance
  cases hi : c.acts.position? s.act with
  | none =>
    have hworld : c.acts.position? (World.of c s).act = none := hi
    unfold State.advanceTo
    rw [hi, hworld]
  | some i =>
    have hworld : c.acts.position? (World.of c s).act = some i := hi
    rw [hworld]
    cases hj : c.acts.position? act with
    | none =>
      unfold State.advanceTo
      rw [hi, hj]
    | some j =>
      dsimp only
      rw [State.advanceTo_eq act hi hj]
      split
      · rfl
      · rfl

/-! ### Writes -/

/-- Writing an override changes only what overrides tell. -/
theorem World.of_updateOverride {key : EntityKey} {change : Override → Override}
    {placement : EntityId → Placement} {standing : EntityId → Option EntityId}
    {locked hidden : EntityId → Option Bool} {text : EntityKey → Option String}
    (hplacement : (View.mk c (s.updateOverride key change)).placement = placement)
    (hstanding : (View.mk c (s.updateOverride key change)).standing? = standing)
    (hlocked : (View.mk c (s.updateOverride key change)).locked? = locked)
    (hhidden : (View.mk c (s.updateOverride key change)).hidden? = hidden)
    (htext : (View.mk c (s.updateOverride key change)).text? = text) :
    World.of c (s.updateOverride key change) =
      { World.of c s with placement, standing, locked, hidden, text } := by
  subst hplacement hstanding hlocked hhidden htext
  obtain ⟨_, hsame⟩ := State.exists_updateOverride_eq s key change
  rw [hsame]
  rfl

section Apart

variable {α : Type} {f : Override.Facet α} {key : EntityKey} (hs : s.KindsMatch) (x : Option α)
include hs

theorem View.recordedPlacement_of_apart (hf : f.Apart .placement) (i : EntityId) :
    (View.mk c (s.updateOverride key (f.set x))).recordedPlacement i =
      (View.mk c s).recordedPlacement i := by
  rw [View.recordedPlacement_eq, View.recordedPlacement_eq, State.read_set_of_apart hs hf]

theorem View.placement_of_apart (hf : f.Apart .placement) :
    (View.mk c (s.updateOverride key (f.set x))).placement = (View.mk c s).placement := by
  obtain ⟨_, hsame⟩ := State.exists_updateOverride_eq s key (f.set x)
  funext i
  exact View.placement_congr (by rw [hsame]; rfl) (View.recordedPlacement_of_apart hs x hf i)

theorem View.standing_of_apart (hf : f.Apart .location) :
    (View.mk c (s.updateOverride key (f.set x))).standing? = (View.mk c s).standing? := by
  funext p
  rw [View.standing_eq, View.standing_eq, State.read_set_of_apart hs hf]

theorem View.locked_of_apart (hf : f.Apart .locked) :
    (View.mk c (s.updateOverride key (f.set x))).locked? = (View.mk c s).locked? := by
  funext y
  rw [View.locked_eq, View.locked_eq, State.read_set_of_apart hs hf]

theorem View.hidden_of_apart (hf : f.Apart .hidden) :
    (View.mk c (s.updateOverride key (f.set x))).hidden? = (View.mk c s).hidden? := by
  funext y
  rw [View.hidden_eq, View.hidden_eq, State.read_set_of_apart hs hf]

theorem View.text_of_apart (hf : f.Apart .description) :
    (View.mk c (s.updateOverride key (f.set x))).text? = (View.mk c s).text? := by
  funext k
  rw [View.text_eq ((hs.updateOverride (f.kind_set x)).filed k), View.text_eq (hs.filed k),
    State.read_set_of_apart hs hf]

end Apart

theorem update_eq {α β : Type} [DecidableEq α] {f g : α → β} {a : α} {b : β} (ha : g a = b)
    (h : ∀ x, x ≠ a → g x = f x) : g = Function.update f a b := by
  funext x
  by_cases hx : x = a
  · rw [hx, ha, Function.update_self]
  · rw [h x hx, Function.update_of_ne hx]

theorem World.of_setPlacement (hs : s.KindsMatch) (i : EntityId) (p : Placement)
    (hp : p = .carried ↔ s.hasItem i = true) :
    World.of c (s.setPlacement c i p) =
      { World.of c s with placement := Function.update (View.mk c s).placement i p } := by
  have hplacement : (View.mk c (s.setPlacement c i p)).placement =
      Function.update (View.mk c s).placement i p := by
    obtain ⟨_, hsame⟩ := State.exists_updateOverride_eq s (.item i)
      (Override.Facet.placement.set (State.differing (some (c.initialPlacement i)) p))
    have hcarried : ∀ j, (s.setPlacement c i p).hasItem j = s.hasItem j := by
      intro j
      rw [State.setPlacement_eq, hsame]
      rfl
    refine update_eq ?_ fun j hj => ?_
    · have hrecorded := View.recordedPlacement_setPlacement (c := c) hs i i p
      rw [if_pos rfl] at hrecorded
      by_cases hc : p = .carried
      · rw [View.placement_of_carried ((hcarried i).trans (hp.1 hc)), hc]
      · rw [View.placement_of_recorded ((hcarried i).trans (by simpa using mt hp.2 hc))
          (by rw [hrecorded]; exact hc), hrecorded]
    · refine View.placement_congr (hcarried j) ?_
      rw [View.recordedPlacement_setPlacement hs, if_neg hj]
  obtain ⟨hl, hk, hh, hd⟩ := Override.Facet.placement_apart
  rw [State.setPlacement_eq] at hplacement ⊢
  exact World.of_updateOverride hplacement (View.standing_of_apart hs _ hl)
    (View.locked_of_apart hs _ hk) (View.hidden_of_apart hs _ hh) (View.text_of_apart hs _ hd)

theorem World.of_putItem (hs : s.KindsMatch) (i : EntityId) {p : Placement} (hp : p ≠ .carried) :
    World.of c (s.putItem c i p) = (World.of c s).put i p := by
  have hout : (s.removeItem i).hasItem i = false := by simp [State.hasItem, State.removeItem]
  have hplacement : Function.update (View.mk c (s.removeItem i)).placement i p =
      Function.update (View.mk c s).placement i p := by
    refine update_eq (Function.update_self ..) fun j hj => ?_
    rw [Function.update_of_ne hj]
    refine View.placement_congr ?_ rfl
    simp [State.hasItem, State.removeItem, hj]
  unfold State.putItem World.put
  rw [World.of_setPlacement (s := s.removeItem i) hs i p (by simp [hp, hout]), hplacement]
  rfl

theorem State.markFired_eq (s : State) (b : EntityId) :
    s.markFired b = { s with
      firedBeats := if s.firedBeats.contains b then s.firedBeats else s.firedBeats ++ [b] } := by
  unfold State.markFired
  split <;> rfl

theorem State.addItem_eq (i : EntityId) :
    s.addItem i =
      { s with inventory := if i ∈ s.inventory then s.inventory else s.inventory ++ [i] } := by
  unfold State.addItem State.hasItem
  by_cases hi : i ∈ s.inventory
  · simp [hi]
  · simp [hi]

theorem World.of_takeItem (hs : s.KindsMatch) (i : EntityId) :
    World.of c (s.takeItem c i) = (World.of c s).after c (.giveItem i) := by
  have hin : (s.addItem i).hasItem i = true := by
    rw [State.addItem_eq]
    unfold State.hasItem
    split
    · simpa
    · simp
  have hkinds : (s.addItem i).KindsMatch := by
    rw [State.addItem_eq]
    exact hs
  have hplacement : Function.update (View.mk c (s.addItem i)).placement i .carried =
      Function.update (View.mk c s).placement i .carried := by
    refine update_eq (Function.update_self ..) fun j hj => ?_
    rw [Function.update_of_ne hj, State.addItem_eq]
    refine View.placement_congr ?_ rfl
    unfold State.hasItem
    split
    · rfl
    · simp [hj]
  unfold State.takeItem
  rw [World.of_setPlacement hkinds i .carried (by simp [hin]), hplacement, State.addItem_eq]
  rfl

theorem World.of_setCounter (hs : s.KindsMatch) (p : EntityId) (n : String) (x : Count) :
    World.of c (s.setCounter c p n x) = (World.of c s).count p n x := by
  have hcounter : (View.mk c (s.setCounter c p n x)).counter =
      Function.update (View.mk c s).counter p
        (Function.update ((View.mk c s).counter p) n x) := by
    refine update_eq (update_eq ?_ fun m hm => ?_) fun q hq => ?_
    · rw [View.counter_setCounter, if_pos ⟨rfl, rfl⟩]
    · rw [View.counter_setCounter, if_neg (fun h => hm h.2)]
    · funext m
      rw [View.counter_setCounter, if_neg (fun h => hq h.1)]
  obtain ⟨counters, hsame⟩ := State.exists_setCounter_eq (c := c) (s := s) p n x
  have hstanding : (View.mk c { s with counters }).standing? = (View.mk c s).standing? := by
    funext q
    rw [View.standing_eq, View.standing_eq]
    rfl
  have htext : (View.mk c { s with counters }).text? = (View.mk c s).text? := by
    funext k
    rw [View.text_eq (v := ⟨c, { s with counters }⟩) (hs.filed k), View.text_eq (hs.filed k)]
    rfl
  rw [hsame] at hcounter ⊢
  exact World.ext rfl rfl rfl rfl hstanding hcounter rfl rfl htext rfl rfl rfl

theorem World.of_moveCharacter (hs : s.KindsMatch) {p : EntityId}
    (hp : c.contains (.character p) = true) (l : EntityId) :
    World.of c (s.moveCharacter c p l) = (World.of c s).after c (.moveCharacter p l) := by
  have hstanding : (View.mk c (s.moveCharacter c p l)).standing? =
      Function.update (View.mk c s).standing? p (some l) := by
    refine update_eq ?_ fun q hq => ?_
    · rw [View.standing_moveCharacter hs hp, if_pos rfl]
    · rw [View.standing_moveCharacter hs hp, if_neg hq]
  obtain ⟨hplacement, hlocked, hhidden, htext⟩ := Override.Facet.location_apart
  rw [State.moveCharacter_eq] at hstanding ⊢
  exact World.of_updateOverride (View.placement_of_apart hs _ hplacement) hstanding
    (View.locked_of_apart hs _ hlocked) (View.hidden_of_apart hs _ hhidden)
    (View.text_of_apart hs _ htext)

theorem World.of_setLocked (hs : s.KindsMatch) {x : EntityId}
    (hx : c.contains (.exit x) = true) (b : Bool) :
    World.of c (s.setLocked c x b) = (World.of c s).after c (.lockExit x b) := by
  have hlocked : (View.mk c (s.setLocked c x b)).locked? =
      Function.update (View.mk c s).locked? x (some b) := by
    refine update_eq ?_ fun y hy => ?_
    · rw [View.locked_setLocked hs hx, if_pos rfl]
    · rw [View.locked_setLocked hs hx, if_neg hy]
  obtain ⟨hplacement, hstanding, hhidden, htext⟩ := Override.Facet.locked_apart
  rw [State.setLocked_eq] at hlocked ⊢
  exact World.of_updateOverride (View.placement_of_apart hs _ hplacement)
    (View.standing_of_apart hs _ hstanding) hlocked (View.hidden_of_apart hs _ hhidden)
    (View.text_of_apart hs _ htext)

theorem World.of_setHidden (hs : s.KindsMatch) {x : EntityId}
    (hx : c.contains (.exit x) = true) (b : Bool) :
    World.of c (s.setHidden c x b) = (World.of c s).after c (.hideExit x b) := by
  have hhidden : (View.mk c (s.setHidden c x b)).hidden? =
      Function.update (View.mk c s).hidden? x (some b) := by
    refine update_eq ?_ fun y hy => ?_
    · rw [View.hidden_setHidden hs hx, if_pos rfl]
    · rw [View.hidden_setHidden hs hx, if_neg hy]
  obtain ⟨hplacement, hstanding, hlocked, htext⟩ := Override.Facet.hidden_apart
  rw [State.setHidden_eq] at hhidden ⊢
  exact World.of_updateOverride (View.placement_of_apart hs _ hplacement)
    (View.standing_of_apart hs _ hstanding) (View.locked_of_apart hs _ hlocked) hhidden
    (View.text_of_apart hs _ htext)

theorem World.of_describe (hs : s.KindsMatch) {key : EntityKey}
    (hkind : key.kind.overridable = true) (hkey : c.contains key = true) (t : String) :
    World.of c (s.describe c key t) = (World.of c s).after c (.describe key t) := by
  have htext : (View.mk c (s.describe c key t)).text? =
      Function.update (View.mk c s).text? key (some t) := by
    refine update_eq ?_ fun k hk => ?_
    · rw [View.text_describe hs hkind hkey, if_pos rfl]
    · rw [View.text_describe hs hkind hkey, if_neg hk]
  obtain ⟨hplacement, hstanding, hlocked, hhidden⟩ := Override.Facet.description_apart
  rw [State.describe_eq s c hkind] at htext ⊢
  exact World.of_updateOverride (View.placement_of_apart hs _ hplacement)
    (View.standing_of_apart hs _ hstanding) (View.locked_of_apart hs _ hlocked)
    (View.hidden_of_apart hs _ hhidden) htext

/-! ### What effects leave alone -/

/-- Where an effect leaves a player who stands in a location. -/
def Effect.lead (location : EntityId) : Effect → EntityId
  | movePlayer l => l
  | _ => location

def Effect.carry (inventory : List EntityId) : Effect → List EntityId
  | giveItem item => if item ∈ inventory then inventory else inventory ++ [item]
  | removeItem item | destroyItem item | placeItem item _ | handItem item _ =>
    inventory.filter (· != item)
  | _ => inventory

def Effect.complete (spokes : SortedSet EntityId) : Effect → SortedSet EntityId
  | completeSpoke x => spokes.insert x
  | _ => spokes

theorem State.exists_change_eq_of_ne_advanceAct (s : State) {e : Effect}
    (he : ∀ act, e ≠ .advanceAct act) :
    ∃ flags counters overrides,
      s.change c e = { s with
        location := e.lead s.location, inventory := e.carry s.inventory, flags, counters, overrides,
        completedSpokes := e.complete s.completedSpokes } := by
  cases e with
  | setFlag | clearFlag | movePlayer | completeSpoke => exact ⟨_, _, _, rfl⟩
  | giveItem item =>
    show ∃ flags counters overrides, (s.addItem item).setPlacement c item .carried = _
    rw [State.addItem_eq]
    obtain ⟨_, hsame⟩ := State.exists_updateOverride_eq _ (.item item) _
    exact ⟨_, _, _, hsame⟩
  | removeItem item =>
    show ∃ flags counters overrides,
      (if s.hasItem item = true then s.putItem c item .limbo else s) = _
    split
    · obtain ⟨_, hsame⟩ := State.exists_updateOverride_eq (s.removeItem item) (.item item) _
      exact ⟨_, _, _, hsame⟩
    · rename_i hmissing
      -- What is not carried cannot be taken out of the inventory.
      have hkept : (Effect.removeItem item).carry s.inventory = s.inventory := by
        refine List.filter_eq_self.2 fun x hx => ?_
        have : x ≠ item := fun heq => hmissing (by simpa [hasItem] using heq ▸ hx)
        simpa using this
      rw [hkept]
      exact ⟨_, _, _, rfl⟩
  | destroyItem item | placeItem item location | handItem item character =>
    obtain ⟨_, hsame⟩ := State.exists_updateOverride_eq (s.removeItem item) (.item item) _
    exact ⟨_, _, _, hsame⟩
  | moveCharacter p l | lockExit x b | hideExit x b =>
    obtain ⟨_, hsame⟩ := State.exists_updateOverride_eq s _ _
    exact ⟨_, _, _, hsame⟩
  | adjustCounter p n d | setCounter p n d =>
    obtain ⟨_, hsame⟩ := State.exists_setCounter_eq (c := c) (s := s) p n _
    exact ⟨_, _, _, hsame⟩
  | describe key text =>
    show ∃ flags counters overrides, s.describe c key text = _
    unfold State.describe
    split
    · obtain ⟨_, hsame⟩ := State.exists_updateOverride_eq s key _
      exact ⟨_, _, _, hsame⟩
    · exact ⟨_, _, _, rfl⟩
  | advanceAct act => exact absurd rfl (he act)

/-- What an effect makes of the state; it leaves the turn counter, the beats, the interactions and
the victory alone. -/
theorem State.exists_change_eq (s : State) (e : Effect) :
    ∃ flags counters overrides act reachedActs,
      s.change c e = { s with
        location := e.lead s.location, inventory := e.carry s.inventory, flags, counters, overrides,
        act, reachedActs, completedSpokes := e.complete s.completedSpokes } := by
  obtain ⟨act, rfl⟩ | he := e.eq_advanceAct_or_ne
  · obtain ⟨_, _, hsame⟩ := State.exists_advanceTo_eq (c := c) (s := s) act
    exact ⟨_, _, _, _, _, hsame⟩
  · obtain ⟨_, _, _, hsame⟩ := s.exists_change_eq_of_ne_advanceAct (c := c) he
    exact ⟨_, _, _, _, _, hsame⟩

/-- The change of the store, read as a world, is that of the world. -/
theorem World.of_change (hs : s.KindsMatch) {e : Effect}
    (hdeclared : ∀ key ∈ e.references, c.contains key = true) (hallows : (World.of c s).Allows e) :
    World.of c (s.change c e) = (World.of c s).after c e := by
  cases e with
  | setFlag flag value =>
    have hflags :
        (s.flags.insert flag value).get? = Function.update s.flags.get? flag (some value) :=
      update_eq (by simp) fun x hx => by simp [hx]
    show { World.of c s with flags := (s.flags.insert flag value).get? } = _
    rw [hflags]
    rfl
  | clearFlag flag =>
    have hflags : (s.flags.erase flag).get? = Function.update s.flags.get? flag none :=
      update_eq (by simp) fun x hx => by simp [hx]
    show { World.of c s with flags := (s.flags.erase flag).get? } = _
    rw [hflags]
    rfl
  | giveItem item => exact World.of_takeItem hs item
  | removeItem item =>
    show World.of c (if s.hasItem item = true then s.putItem c item .limbo else s) =
      if item ∈ s.inventory then (World.of c s).put item .limbo else World.of c s
    by_cases hi : item ∈ s.inventory
    · rw [if_pos (by simpa [State.hasItem] using hi), if_pos hi]
      exact World.of_putItem hs item (by simp)
    · rw [if_neg (by simpa [State.hasItem] using hi), if_neg hi]
  | destroyItem item => exact World.of_putItem hs item (by simp)
  | placeItem item location => exact World.of_putItem hs item (by simp)
  | handItem item character => exact World.of_putItem hs item (by simp)
  | movePlayer location => rfl
  | moveCharacter character location =>
    exact World.of_moveCharacter hs (hdeclared _ (by simp [Effect.references])) location
  | adjustCounter character name d => exact World.of_setCounter hs ..
  | setCounter character name x => exact World.of_setCounter hs ..
  | lockExit exit b =>
    exact World.of_setLocked hs (hdeclared _ (by simp [Effect.references])) b
  | hideExit exit b =>
    exact World.of_setHidden hs (hdeclared _ (by simp [Effect.references])) b
  | describe key text =>
    exact World.of_describe hs hallows (hdeclared _ (by simp [Effect.references])) text
  | completeSpoke spoke =>
    have hspokes : (s.completedSpokes.insert spoke).contains =
        Function.update s.completedSpokes.contains spoke true := by
      refine update_eq (SortedSet.mem_iff_contains.1 (by simp)) fun x hx => ?_
      rw [Bool.eq_iff_iff, ← SortedSet.mem_iff_contains, ← SortedSet.mem_iff_contains]
      simp [hx]
    show { World.of c s with spokes := (s.completedSpokes.insert spoke).contains } = _
    rw [hspokes]
    rfl
  | advanceAct act => exact World.of_advanceTo act

end

end Storyworld
