import Mathlib.Algebra.Ring.Nat
import Storyworld.Proofs.Whereabouts

/-!
# Sparsity of the store

The store keeps nothing that the authored world says already: overrides have fields, each of which
differs from the authored one, and so do the counters (`State.Sparse`). Every single change of the
store restores this, so it holds in every state that turns lead to. The number of changed fields on
record is then the number of fields of declared entities whose effective value is not the authored
one (`State.overriddenFields_eq`).
-/

namespace Storyworld

/-! ### Overrides that tell something -/

open Override (Facet)

/-- Every field that an override of an entity changes differs from the authored one. -/
structure Override.Departs (c : Catalog) (key : EntityKey) (o : Override) : Prop where
  placement : ∀ p ∈ Facet.placement.get o, c.initialPlacement key.id ≠ p
  location : ∀ l ∈ Facet.location.get o, (c.characters.get? key.id).bind (·.location) ≠ some l
  locked : ∀ b ∈ Facet.locked.get o, (c.exits.get? key.id).any (·.locked) ≠ b
  hidden : ∀ b ∈ Facet.hidden.get o, (c.exits.get? key.id).any (·.hidden) ≠ b
  text : ∀ t ∈ Facet.description.get o, c.authoredDescription? key ≠ some t

theorem State.ne_of_mem_differing {α : Type} [DecidableEq α] {authored : Option α} {x y : α}
    (h : y ∈ State.differing authored x) : authored ≠ some y := by
  unfold State.differing at h
  split at h
  · cases h
  · rename_i hne
    obtain rfl := Option.mem_some_iff.1 h
    exact hne

namespace Override

variable {c : Catalog} {key : EntityKey} {o : Override}

theorem departs_of_empty? {kind : EntityKind} (h : empty? kind = some o) : o.Departs c key where
  placement p hp := by rw [Facet.placement.get_empty kind o h] at hp; cases hp
  location l hl := by rw [Facet.location.get_empty kind o h] at hl; cases hl
  locked b hb := by rw [Facet.locked.get_empty kind o h] at hb; cases hb
  hidden b hb := by rw [Facet.hidden.get_empty kind o h] at hb; cases hb
  text t ht := by rw [Facet.description.get_empty kind o h] at ht; cases ht

theorem Departs.withPlacement (h : o.Departs c key) (p : Placement) :
    (o.withPlacement (State.differing (some (c.initialPlacement key.id)) p)).Departs c key := by
  cases o with
  | item q d =>
    exact { h with placement := fun x hx e => State.ne_of_mem_differing hx (congrArg some e) }
  | _ => exact h

theorem Departs.withLocation (h : o.Departs c key) (l : EntityId) :
    (o.withLocation (State.differing ((c.characters.get? key.id).bind (·.location)) l)).Departs
      c key := by
  cases o with
  | character q d => exact { h with location := fun x hx => State.ne_of_mem_differing hx }
  | _ => exact h

theorem Departs.withLocked (h : o.Departs c key) (b : Bool) :
    (o.withLocked (State.differing (some ((c.exits.get? key.id).any (·.locked))) b)).Departs
      c key := by
  cases o with
  | exit k x d =>
    exact { h with locked := fun y hy e => State.ne_of_mem_differing hy (congrArg some e) }
  | _ => exact h

theorem Departs.withHidden (h : o.Departs c key) (b : Bool) :
    (o.withHidden (State.differing (some ((c.exits.get? key.id).any (·.hidden))) b)).Departs
      c key := by
  cases o with
  | exit k x d =>
    exact { h with hidden := fun y hy e => State.ne_of_mem_differing hy (congrArg some e) }
  | _ => exact h

theorem Departs.withDescription (h : o.Departs c key) (t : String) :
    (o.withDescription (State.differing (c.authoredDescription? key) t)).Departs c key := by
  obtain ⟨hplacement, hlocation, hlocked, hhidden⟩ := Facet.description_apart
  constructor
  · intro p hp
    exact h.placement p ((hplacement _ o) ▸ hp)
  · intro l hl
    exact h.location l ((hlocation _ o) ▸ hl)
  · intro b hb
    exact h.locked b ((hlocked _ o) ▸ hb)
  · intro b hb
    exact h.hidden b ((hhidden _ o) ▸ hb)
  · intro x hx
    refine State.ne_of_mem_differing (x := t) ?_
    cases o <;> exact hx

end Override

/-! ### Sparse states -/

namespace State

/-- The store holds overrides of declared entities only, each of the kind of its key and with some
field, and nothing in it is as it was authored. -/
structure Sparse (c : Catalog) (s : State) : Prop where
  kinds : s.KindsMatch
  declared : ∀ key o, s.overrides.get? key = some o → c.contains key = true
  nonempty : ∀ key o, s.overrides.get? key = some o → o.isEmpty = false
  departs : ∀ key o, s.overrides.get? key = some o → o.Departs c key
  counted : ∀ p own, s.counters.get? p = some own → own.isEmpty = false
  counters : ∀ p own n x, s.counters.get? p = some own → own.get? n = some x →
    x ≠ c.authoredCounter p n

namespace Sparse

variable {c : Catalog} {s t : State}

theorem initial : Sparse c (.initial c) where
  kinds _ _ h := nomatch h
  declared _ _ h := nomatch h
  nonempty _ _ h := nomatch h
  departs _ _ h := nomatch h
  counted _ _ h := nomatch h
  counters _ _ _ _ h := nomatch h

theorem congr (hs : s.Sparse c) (ho : t.overrides = s.overrides) (hc : t.counters = s.counters) :
    t.Sparse c where
  kinds key o h := hs.kinds key o (ho ▸ h)
  declared key o h := hs.declared key o (ho ▸ h)
  nonempty key o h := hs.nonempty key o (ho ▸ h)
  departs key o h := hs.departs key o (ho ▸ h)
  counted p own h := hs.counted p own (hc ▸ h)
  counters p own n x h := hs.counters p own n x (hc ▸ h)

/-- A change of an override that keeps its fields apart from the authored ones keeps the store
sparse, since an override that is left without fields is dropped. -/
theorem updateOverride (hs : s.Sparse c) {key : EntityKey} {change : Override → Override}
    (hkey : c.contains key = true) (hkind : ∀ o, (change o).kind = o.kind)
    (hchange : ∀ o, o.Departs c key → (change o).Departs c key) :
    (s.updateOverride key change).Sparse c := by
  obtain ⟨_, hsame⟩ := exists_updateOverride_eq s key change
  have hcounters : (s.updateOverride key change).counters = s.counters := by rw [hsame]
  refine ⟨hs.kinds.updateOverride hkind, fun k o ho => ?_, fun k o ho => ?_, fun k o ho => ?_,
    fun p own h => hs.counted p own (hcounters ▸ h),
    fun p own n x h => hs.counters p own n x (hcounters ▸ h)⟩
  · rcases get?_overrides_updateOverride ho with h | ⟨rfl, -, -⟩
    · exact hs.declared k o h
    · exact hkey
  · rcases get?_overrides_updateOverride ho with h | ⟨-, h, -⟩
    · exact hs.nonempty k o h
    · exact h
  · rcases get?_overrides_updateOverride ho with h | ⟨rfl, -, old, hold, rfl⟩
    · exact hs.departs k o h
    · refine hchange old ?_
      rcases overrideOf_cases hold with h | h
      · exact hs.departs k old h
      · exact Override.departs_of_empty? h

theorem setPlacement (hs : s.Sparse c) {i : EntityId} (hi : c.contains (.item i) = true)
    (p : Placement) : (s.setPlacement c i p).Sparse c :=
  hs.updateOverride hi (Override.kind_withPlacement _) fun _ h => h.withPlacement p

theorem putItem (hs : s.Sparse c) {i : EntityId} (hi : c.contains (.item i) = true)
    (p : Placement) : (s.putItem c i p).Sparse c :=
  (hs.congr (t := s.removeItem i) rfl rfl).setPlacement hi p

theorem takeItem (hs : s.Sparse c) {i : EntityId} (hi : c.contains (.item i) = true) :
    (s.takeItem c i).Sparse c := by
  refine (hs.congr (t := s.addItem i) ?_ ?_).setPlacement hi .carried
  · rw [addItem_eq]
  · rw [addItem_eq]

/-- A counter that is set back to its authored value leaves no entry, and a character none of whose
counters differ leaves no map. -/
theorem setCounter (hs : s.Sparse c) (p : EntityId) (n : String) (x : Count) :
    (s.setCounter c p n x).Sparse c := by
  have hmap : ∀ q own, (s.setCounter c p n x).counters.get? q = some own → own.isEmpty = false := by
    intro q own h
    unfold State.setCounter at h
    split at h
    · cases hown : s.counters.get? p with
      | none =>
        rw [hown] at h
        exact hs.counted q own h
      | some old =>
        rw [hown] at h
        dsimp only at h
        split at h
        · rw [SortedMap.get?_erase] at h
          split at h
          · cases h
          · exact hs.counted q own h
        · rename_i hrest
          rw [SortedMap.get?_insert] at h
          split at h
          · cases h
            simpa using hrest
          · exact hs.counted q own h
    · rw [SortedMap.get?_insert] at h
      split at h
      · obtain rfl := Option.some.inj h
        rw [Bool.eq_false_iff]
        intro hempty
        have hnone := SortedMap.get?_of_isEmpty hempty n
        rw [SortedMap.get?_insert, if_pos rfl] at hnone
        cases hnone
      · exact hs.counted q own h
  have hvalue : ∀ q m y, (s.setCounter c p n x).counterOverride? q m = some y →
      y ≠ c.authoredCounter q m := by
    intro q m y h
    rw [counterOverride?_setCounter] at h
    split at h
    · rename_i hqm
      obtain ⟨rfl, rfl⟩ := hqm
      exact fun e => ne_of_mem_differing h (congrArg some e.symm)
    · obtain ⟨own, hown, hy⟩ := Option.bind_eq_some_iff.1 h
      exact hs.counters q own m y hown hy
  obtain ⟨counters, hsame⟩ := exists_setCounter_eq (c := c) (s := s) p n x
  have hoverrides : (s.setCounter c p n x).overrides = s.overrides := by rw [hsame]
  exact ⟨fun key o h => hs.kinds key o (hoverrides ▸ h),
    fun key o h => hs.declared key o (hoverrides ▸ h),
    fun key o h => hs.nonempty key o (hoverrides ▸ h),
    fun key o h => hs.departs key o (hoverrides ▸ h), hmap,
    fun q own m y hown hy => hvalue q m y (Option.bind_eq_some_iff.2 ⟨own, hown, hy⟩)⟩

/-- An effect whose entities are all declared keeps the store sparse. -/
theorem change (hs : s.Sparse c) {e : Effect}
    (hdeclared : ∀ key ∈ e.references, c.contains key = true) : (s.change c e).Sparse c := by
  cases e with
  | setFlag | clearFlag | movePlayer | completeSpoke => exact hs.congr rfl rfl
  | giveItem item => exact hs.takeItem (hdeclared _ (by simp [Effect.references]))
  | removeItem item =>
    show Sparse c (if s.hasItem item = true then s.putItem c item .limbo else s)
    split
    · exact hs.putItem (hdeclared _ (by simp [Effect.references])) _
    · exact hs
  | destroyItem item => exact hs.putItem (hdeclared _ (by simp [Effect.references])) _
  | placeItem item location => exact hs.putItem (hdeclared _ (by simp [Effect.references])) _
  | handItem item character => exact hs.putItem (hdeclared _ (by simp [Effect.references])) _
  | moveCharacter p l =>
    exact hs.updateOverride (hdeclared _ (by simp [Effect.references]))
      (Override.kind_withLocation _) fun _ h => h.withLocation l
  | adjustCounter p n d | setCounter p n d => exact hs.setCounter p n _
  | lockExit x b =>
    exact hs.updateOverride (hdeclared _ (by simp [Effect.references]))
      (Override.kind_withLocked _) fun _ h => h.withLocked b
  | hideExit x b =>
    exact hs.updateOverride (hdeclared _ (by simp [Effect.references]))
      (Override.kind_withHidden _) fun _ h => h.withHidden b
  | describe key text =>
    show Sparse c (s.describe c key text)
    unfold State.describe
    split
    · exact hs.updateOverride (hdeclared _ (by simp [Effect.references]))
        (Override.kind_withDescription _) fun _ h => h.withDescription text
    · exact hs
  | advanceAct act =>
    obtain ⟨_, _, hsame⟩ := exists_advanceTo_eq (c := c) (s := s) act
    show Sparse c (s.advanceTo c act)
    rw [hsame]
    exact hs.congr rfl rfl

theorem kept : Kept c (Sparse c) := by
  intro s t hs h
  cases h with
  | applied e h =>
    obtain ⟨hdeclared, -, rfl⟩ := apply_eq_ok_iff.1 h
    exact hs.change hdeclared
  | fired b =>
    rw [markFired_eq]
    exact hs.congr rfl rfl
  | _ => exact hs.congr rfl rfl

theorem reachable (h : Reachable c s) : s.Sparse c := kept.reaches initial h

end Sparse
end State

/-! ### Changed fields -/

inductive Field
  | text (key : EntityKey)
  | placement (item : EntityId)
  | standing (character : EntityId)
  | locked (exit : EntityId)
  | hidden (exit : EntityId)

def EntityKey.fields (key : EntityKey) : List Field :=
  match key.kind with
  | .location => [.text key]
  | .item => [.placement key.id, .text key]
  | .character => [.standing key.id, .text key]
  | .exit => [.locked key.id, .hidden key.id, .text key]
  | _ => []

def Catalog.overridable (c : Catalog) : List EntityKey :=
  c.locations.toList.map Definition.key ++ c.items.toList.map Definition.key ++
    c.characters.toList.map Definition.key ++ c.exits.toList.map Definition.key

def Catalog.fields (c : Catalog) : List Field := c.overridable.flatMap EntityKey.fields

/-- Whether the effective value of a field is another one than the authored. -/
def View.changed (v : View) : Field → Bool
  | .text key => v.text? key != v.catalog.authoredDescription? key
  | .placement i => v.placement i != v.catalog.initialPlacement i
  | .standing p => v.standing? p != (v.catalog.characters.get? p).bind (·.location)
  | .locked x => v.locked? x != (v.catalog.exits.get? x).map (·.locked)
  | .hidden x => v.hidden? x != (v.catalog.exits.get? x).map (·.hidden)

/-! ### Counting over keys -/

namespace SortedMap

variable {κ α : Type} [Ord κ] [Std.TransOrd κ] [Std.LawfulEqOrd κ]

omit [Std.TransOrd κ] in
theorem nodup_keys (m : SortedMap κ α) : m.keys.Nodup := by
  refine List.pairwise_map.2 (m.sorted.imp fun h heq => ?_)
  rw [heq] at h
  simp at h

omit [Std.TransOrd κ] in
theorem mem_keys {m : SortedMap κ α} {k : κ} : k ∈ m.keys ↔ (m.get? k).isSome = true := by
  unfold keys
  constructor
  · intro h
    obtain ⟨e, he, rfl⟩ := List.mem_map.1 h
    rw [get?_eq_some_iff.2 he]
    rfl
  · intro h
    obtain ⟨x, hx⟩ := Option.isSome_iff_exists.1 h
    exact List.mem_map.2 ⟨_, get?_eq_some_iff.1 hx, rfl⟩

omit [Std.TransOrd κ] in
/-- A sum over the values of a map is a sum over any keys among which those of the map are. -/
theorem sum_values [DecidableEq κ] (m : SortedMap κ α) (f : α → Nat) {ks : List κ}
    (hnodup : ks.Nodup) (hks : ∀ k ∈ m.keys, k ∈ ks) :
    (m.values.map f).sum = (ks.map fun k => ((m.get? k).map f).getD 0).sum := by
  have hvalues : m.values.map f = m.keys.map fun k => ((m.get? k).map f).getD 0 := by
    unfold values keys
    rw [List.map_map, List.map_map]
    refine List.map_congr_left fun e he => ?_
    simp [get?_eq_some_iff.2 he]
  have hperm : (ks.filter fun k => (m.get? k).isSome).Perm m.keys := by
    refine (List.perm_ext_iff_of_nodup (hnodup.filter _) m.nodup_keys).2 fun k => ?_
    rw [List.mem_filter, ← mem_keys]
    exact ⟨fun h => h.2, fun h => ⟨hks k h, h⟩⟩
  have hzero : ∀ ks : List κ,
      ((ks.filter fun k => (m.get? k).isSome).map fun k => ((m.get? k).map f).getD 0).sum =
        (ks.map fun k => ((m.get? k).map f).getD 0).sum := by
    intro ks
    induction ks with
    | nil => rfl
    | cons k ks ih =>
      cases hk : m.get? k with
      | none => simp [hk, ih]
      | some x => simp [hk, ih]
  rw [hvalues, ← hzero ks]
  exact (hperm.map _).sum_nat.symm

end SortedMap

namespace Table

variable {α : Type} [Definition α]

theorem mem_keys {t : Table α} {key : EntityKey} :
    key ∈ t.toList.map Definition.key ↔
      key.kind = Definition.kind α ∧ t.contains key.id = true := by
  obtain ⟨kind, id⟩ := key
  unfold contains Definition.key
  simp only [List.mem_map, List.any_eq_true, beq_iff_eq, EntityKey.mk.injEq]
  constructor
  · rintro ⟨d, hd, rfl, rfl⟩
    exact ⟨rfl, d, hd, rfl⟩
  · rintro ⟨rfl, d, hd, rfl⟩
    exact ⟨d, hd, rfl, rfl⟩

theorem nodup_keys (t : Table α) : (t.toList.map Definition.key).Nodup := by
  have hids := t.nodup
  refine List.pairwise_map.2 ((List.pairwise_map.1 hids).imp fun hne heq => hne ?_)
  exact congrArg EntityKey.id heq

end Table

namespace Catalog

variable {c : Catalog}

theorem mem_overridable {key : EntityKey} :
    key ∈ c.overridable ↔ key.kind.overridable = true ∧ c.contains key = true := by
  obtain ⟨kind, id⟩ := key
  unfold overridable contains
  simp only [List.mem_append, Table.mem_keys]
  cases kind <;> simp [EntityKind.overridable, Definition.kind]

theorem nodup_overridable : c.overridable.Nodup := by
  unfold overridable
  simp only [List.nodup_append, List.mem_append, Table.mem_keys, Table.nodup_keys, true_and]
  refine ⟨⟨?_, ?_⟩, ?_⟩ <;> rintro a ha b hb rfl <;> simp_all [Definition.kind]

end Catalog

theorem Override.eq_location {o : Override} (h : o.kind = .location) : ∃ d, o = location d := by
  cases o with
  | location d => exact ⟨d, rfl⟩
  | _ => cases h

namespace View

variable {v : View}

theorem getD_bne {α : Type} [DecidableEq α] {x : Option α} {a : α} (h : ∀ y ∈ x, a ≠ y) :
    (x.getD a != a) = x.isSome := by
  cases x with
  | none => simp
  | some y => simpa using Ne.symm (h y rfl)

section
variable (hs : v.state.Sparse v.catalog) {key : EntityKey}
include hs

theorem departs_of_read {α : Type} {f : Facet α} {x : α} (h : x ∈ v.state.read f key) :
    ∃ o : Override, o.Departs v.catalog key ∧ x ∈ f.get o := by
  rw [← State.get?_bind] at h
  obtain ⟨o, ho, hx⟩ := Option.bind_eq_some_iff.1 h
  exact ⟨o, hs.departs key o ho, hx⟩

theorem changed_text (hkey : v.catalog.contains key = true) (hkind : key.kind.overridable = true) :
    v.changed (.text key) = ((v.state.overrides.get? key).bind Facet.description.get).isSome := by
  obtain ⟨authored, hauthored⟩ := exists_authoredDescription? hkind hkey
  show (v.text? key != v.catalog.authoredDescription? key) = _
  rw [text_eq (hs.kinds.filed _), State.get?_bind, hauthored]
  refine getD_bne fun t ht e => ?_
  obtain ⟨o, ho, ht⟩ := departs_of_read hs ht
  exact ho.text t ht (by rw [hauthored, e])

theorem changed_placement (htally : v.state.Tallies v.catalog) (i : EntityId) :
    v.changed (.placement i) =
      ((v.state.overrides.get? (.item i)).bind Facet.placement.get).isSome := by
  show ((View.mk v.catalog v.state).placement i != v.catalog.initialPlacement i) = _
  rw [htally.placement_eq, recordedPlacement_eq, State.get?_bind]
  refine getD_bne fun p hp => ?_
  obtain ⟨o, ho, hp⟩ := departs_of_read hs hp
  exact ho.placement p hp

theorem changed_standing {p : EntityId} (hp : v.catalog.contains (.character p) = true) :
    v.changed (.standing p) =
      ((v.state.overrides.get? (.character p)).bind Facet.location.get).isSome := by
  obtain ⟨d, hd⟩ := Table.contains_iff_exists.1 hp
  show (v.standing? p != (v.catalog.characters.get? p).bind (·.location)) = _
  rw [standing_eq, State.get?_bind, hd]
  cases hl : v.state.read .location (.character p) with
  | none => simp
  | some l =>
    obtain ⟨o, ho, hl⟩ := departs_of_read hs hl
    have hne := ho.location l hl
    rw [hd] at hne
    simpa using Ne.symm hne

theorem changed_locked {x : EntityId} (hx : v.catalog.contains (.exit x) = true) :
    v.changed (.locked x) =
      ((v.state.overrides.get? (.exit x)).bind Facet.locked.get).isSome := by
  obtain ⟨d, hd⟩ := Table.contains_iff_exists.1 hx
  show (v.locked? x != (v.catalog.exits.get? x).map (·.locked)) = _
  rw [locked_eq, State.get?_bind, hd]
  refine getD_bne fun b hb => ?_
  obtain ⟨o, ho, hb⟩ := departs_of_read hs hb
  have hne := ho.locked b hb
  rw [hd] at hne
  exact hne

theorem changed_hidden {x : EntityId} (hx : v.catalog.contains (.exit x) = true) :
    v.changed (.hidden x) =
      ((v.state.overrides.get? (.exit x)).bind Facet.hidden.get).isSome := by
  obtain ⟨d, hd⟩ := Table.contains_iff_exists.1 hx
  show (v.hidden? x != (v.catalog.exits.get? x).map (·.hidden)) = _
  rw [hidden_eq, State.get?_bind, hd]
  refine getD_bne fun b hb => ?_
  obtain ⟨o, ho, hb⟩ := departs_of_read hs hb
  have hne := ho.hidden b hb
  rw [hd] at hne
  exact hne

theorem countP_changed (htally : v.state.Tallies v.catalog)
    (hkey : v.catalog.contains key = true) :
    key.fields.countP v.changed =
      ((v.state.overrides.get? key).map Override.fieldCount).getD 0 := by
  obtain ⟨kind, id⟩ := key
  cases kind with
  | location =>
    have htext := changed_text hs hkey rfl
    cases ho : v.state.overrides.get? (.location id) with
    | none => simp [EntityKey.fields, htext, ho]
    | some o =>
      obtain ⟨d, rfl⟩ := Override.eq_location (hs.kinds _ _ ho)
      cases d <;>
        simp [EntityKey.fields, htext, ho, Facet.description, Override.description?,
          Override.fieldCount]
  | item =>
    have htext := changed_text hs hkey rfl
    have hplacement := changed_placement hs htally id
    cases ho : v.state.overrides.get? (.item id) with
    | none => simp [EntityKey.fields, htext, hplacement, ho]
    | some o =>
      obtain ⟨p, d, rfl⟩ := Override.eq_item (hs.kinds _ _ ho)
      cases p <;> cases d <;>
        simp [EntityKey.fields, htext, hplacement, ho, Facet.placement, Facet.description,
          Override.placement?, Override.description?, Override.fieldCount]
  | character =>
    have htext := changed_text hs hkey rfl
    have hstanding := changed_standing hs hkey
    cases ho : v.state.overrides.get? (.character id) with
    | none => simp [EntityKey.fields, htext, hstanding, ho]
    | some o =>
      obtain ⟨l, d, rfl⟩ := Override.eq_character (hs.kinds _ _ ho)
      cases l <;> cases d <;>
        simp [EntityKey.fields, htext, hstanding, ho, Facet.location, Facet.description,
          Override.description?, Override.fieldCount]
  | exit =>
    have htext := changed_text hs hkey rfl
    have hlocked := changed_locked hs hkey
    have hhidden := changed_hidden hs hkey
    cases ho : v.state.overrides.get? (.exit id) with
    | none => simp [EntityKey.fields, htext, hlocked, hhidden, ho]
    | some o =>
      obtain ⟨k, h, d, rfl⟩ := Override.eq_exit (hs.kinds _ _ ho)
      cases k <;> cases h <;> cases d <;>
        simp [EntityKey.fields, htext, hlocked, hhidden, ho, Facet.locked, Facet.hidden,
          Facet.description, Override.description?, Override.fieldCount]
  | _ =>
    -- Entities of the other kinds have no fields to change, and no override is of their kind.
    cases ho : v.state.overrides.get? ⟨_, id⟩ with
    | none => rfl
    | some o =>
      have hkind := hs.kinds _ _ ho
      cases o <;> cases hkind

end

end View

/-- The number of fields on record is the number of fields whose effective value is not the authored
one. -/
theorem State.overriddenFields_eq {c : Catalog} {s : State} (hs : s.Sparse c)
    (htally : s.Tallies c) : s.overriddenFields = c.fields.countP (View.mk c s).changed := by
  have hdeclared : ∀ key ∈ s.overrides.keys, key ∈ c.overridable := by
    intro key hkey
    obtain ⟨o, ho⟩ := Option.isSome_iff_exists.1 (SortedMap.mem_keys.1 hkey)
    refine Catalog.mem_overridable.2 ⟨?_, hs.declared key o ho⟩
    rw [← hs.kinds key o ho]
    cases o <;> rfl
  calc s.overriddenFields
      = (s.overrides.values.map Override.fieldCount).sum := by
        unfold overriddenFields
        rw [List.sum, List.foldr_map]
    _ = (c.overridable.map fun key =>
          ((s.overrides.get? key).map Override.fieldCount).getD 0).sum :=
        SortedMap.sum_values _ _ Catalog.nodup_overridable hdeclared
    _ = (c.overridable.map (List.countP (View.mk c s).changed ∘ EntityKey.fields)).sum := by
        refine congrArg List.sum (List.map_congr_left fun key hkey => ?_)
        exact (View.countP_changed (v := ⟨c, s⟩) hs htally (Catalog.mem_overridable.1 hkey).2).symm
    _ = c.fields.countP (View.mk c s).changed := List.countP_flatMap.symm

/-- In every state that turns lead to the store is sparse, and it has as many changed fields on
record as there are fields of declared entities whose effective value is not the authored one. -/
theorem State.sparse_and_counted {c : Catalog} {s : State} (hs : Reachable c s) :
    s.Sparse c ∧ s.overriddenFields = c.fields.countP (View.mk c s).changed :=
  have hsparse := Sparse.reachable hs
  ⟨hsparse, overriddenFields_eq hsparse (Tallies.reachable hs)⟩

/-- Taking the lantern changes one field in the cellar, and dropping it where it was authored to lie
leaves no residue. -/
theorem lantern_leaves_no_residue :
    (let s := (Line.play cellar { input := "take lantern" } (.initial cellar)).state
     let t := (Line.play cellar { input := "drop lantern" } s).state
     Reachable cellar s ∧ cellar.fields.countP (View.mk cellar s).changed = 1 ∧
       Reachable cellar t ∧ cellar.fields.countP (View.mk cellar t).changed = 0 ∧
       t.overrides = .empty) := by
  intro s t
  have hs : Reachable cellar s := .turn .refl _
  have ht : Reachable cellar t := .turn hs _
  have htaken : s.overriddenFields = 1 := by decide +kernel
  have hdropped : t.overriddenFields = 0 := by decide +kernel
  rw [(State.sparse_and_counted hs).2] at htaken
  rw [(State.sparse_and_counted ht).2] at hdropped
  exact ⟨hs, htaken, ht, hdropped, by decide +kernel⟩

end Storyworld
