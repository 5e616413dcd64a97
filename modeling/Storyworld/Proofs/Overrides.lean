import Storyworld.Apply

/-!
# Reading overrides

The store drops an override that changes nothing, so an entity may have one or not. `overrideOf`
takes the two alike, and `read` reads one field of it. While every override is of the kind of its
key (`KindsMatch`), setting a field changes what is read of that field of that entity, and nothing
else (`read_set_self`, `read_set_of_ne`, `read_set_of_apart`). The look-ups of a view are readings
(`recordedPlacement_eq`, `standing_eq`, `locked_eq`, `hidden_eq`, `text_eq`).
-/

namespace Storyworld

namespace Override

@[simp] theorem kind_withDescription (d : Option String) (o : Override) :
    (o.withDescription d).kind = o.kind := by cases o <;> rfl
@[simp] theorem kind_withPlacement (p : Option Placement) (o : Override) :
    (o.withPlacement p).kind = o.kind := by cases o <;> rfl
@[simp] theorem kind_withLocation (l : Option EntityId) (o : Override) :
    (o.withLocation l).kind = o.kind := by cases o <;> rfl
@[simp] theorem kind_withLocked (k : Option Bool) (o : Override) :
    (o.withLocked k).kind = o.kind := by cases o <;> rfl
@[simp] theorem kind_withHidden (h : Option Bool) (o : Override) :
    (o.withHidden h).kind = o.kind := by cases o <;> rfl

theorem kind_of_empty? {k : EntityKind} {o : Override} (h : empty? k = some o) : o.kind = k := by
  cases k <;> cases h <;> rfl

theorem eq_item {o : Override} (h : o.kind = .item) : ∃ p d, o = item p d := by
  cases o with
  | item p d => exact ⟨p, d, rfl⟩
  | _ => cases h

theorem eq_character {o : Override} (h : o.kind = .character) : ∃ l d, o = character l d := by
  cases o with
  | character l d => exact ⟨l, d, rfl⟩
  | _ => cases h

theorem eq_exit {o : Override} (h : o.kind = .exit) : ∃ k x d, o = exit k x d := by
  cases o with
  | exit k x d => exact ⟨k, x, d, rfl⟩
  | _ => cases h

theorem empty?_of_isEmpty {o : Override} (h : o.isEmpty = true) : empty? o.kind = some o := by
  cases o <;> simp_all [isEmpty, fieldCount, empty?, kind]

/-- A field that overrides of some kinds have. -/
structure Facet (α : Type) where
  get : Override → Option α
  set : Option α → Override → Override
  /-- The kinds that have the field. -/
  Of : EntityKind → Prop
  kind_set (x : Option α) (o : Override) : (set x o).kind = o.kind
  get_set (x : Option α) (o : Override) : Of o.kind → get (set x o) = x
  empty_of (k : EntityKind) : Of k → (empty? k).isSome = true
  get_empty (k : EntityKind) (o : Override) : empty? k = some o → get o = none

namespace Facet

def placement : Facet Placement where
  get := placement?
  set := withPlacement
  Of k := k = .item
  kind_set := kind_withPlacement
  get_set x o h := by obtain ⟨_, _, rfl⟩ := eq_item h; rfl
  empty_of k h := by subst h; rfl
  get_empty k o h := by cases k <;> cases h <;> rfl

def location : Facet EntityId where
  get
    | character l _ => l
    | _ => none
  set := withLocation
  Of k := k = .character
  kind_set := kind_withLocation
  get_set x o h := by obtain ⟨_, _, rfl⟩ := eq_character h; rfl
  empty_of k h := by subst h; rfl
  get_empty k o h := by cases k <;> cases h <;> rfl

def locked : Facet Bool where
  get
    | exit k _ _ => k
    | _ => none
  set := withLocked
  Of k := k = .exit
  kind_set := kind_withLocked
  get_set x o h := by obtain ⟨_, _, _, rfl⟩ := eq_exit h; rfl
  empty_of k h := by subst h; rfl
  get_empty k o h := by cases k <;> cases h <;> rfl

def hidden : Facet Bool where
  get
    | exit _ h _ => h
    | _ => none
  set := withHidden
  Of k := k = .exit
  kind_set := kind_withHidden
  get_set x o h := by obtain ⟨_, _, _, rfl⟩ := eq_exit h; rfl
  empty_of k h := by subst h; rfl
  get_empty k o h := by cases k <;> cases h <;> rfl

def description : Facet String where
  get := description?
  set := withDescription
  Of k := k.overridable = true
  kind_set := kind_withDescription
  get_set x o _ := by cases o <;> rfl
  empty_of k h := by cases k <;> first | rfl | cases h
  get_empty k o h := by cases k <;> cases h <;> rfl

/-- Setting the one field leaves the other alone. -/
def Apart {α β : Type} (f : Facet α) (g : Facet β) : Prop :=
  ∀ x o, g.get (f.set x o) = g.get o

theorem placement_apart :
    placement.Apart location ∧ placement.Apart locked ∧ placement.Apart hidden ∧
      placement.Apart description := by
  refine ⟨?_, ?_, ?_, ?_⟩ <;> intro x o <;> cases o <;> rfl

theorem location_apart :
    location.Apart placement ∧ location.Apart locked ∧ location.Apart hidden ∧
      location.Apart description := by
  refine ⟨?_, ?_, ?_, ?_⟩ <;> intro x o <;> cases o <;> rfl

theorem locked_apart :
    locked.Apart placement ∧ locked.Apart location ∧ locked.Apart hidden ∧
      locked.Apart description := by
  refine ⟨?_, ?_, ?_, ?_⟩ <;> intro x o <;> cases o <;> rfl

theorem hidden_apart :
    hidden.Apart placement ∧ hidden.Apart location ∧ hidden.Apart locked ∧
      hidden.Apart description := by
  refine ⟨?_, ?_, ?_, ?_⟩ <;> intro x o <;> cases o <;> rfl

theorem description_apart :
    description.Apart placement ∧ description.Apart location ∧ description.Apart locked ∧
      description.Apart hidden := by
  refine ⟨?_, ?_, ?_, ?_⟩ <;> intro x o <;> cases o <;> rfl

end Facet
end Override

namespace State

open Override (Facet)

/-- Every override is of the kind of its key. -/
def KindsMatch (s : State) : Prop := ∀ key o, s.overrides.get? key = some o → o.kind = key.kind

/-- The override of this entity, if there is one, is of its kind. -/
def Filed (s : State) (key : EntityKey) : Prop :=
  ∀ o, s.overrides.get? key = some o → o.kind = key.kind

/-- The override of an entity, made anew if there is none. -/
def overrideOf (s : State) (key : EntityKey) : Option Override :=
  s.overrides.get? key <|> Override.empty? key.kind

def read {α : Type} (s : State) (f : Facet α) (key : EntityKey) : Option α :=
  (s.overrideOf key).bind f.get

variable {s : State} {key k : EntityKey} {change : Override → Override}

theorem KindsMatch.filed (hs : s.KindsMatch) (key : EntityKey) : s.Filed key := hs key

theorem updateOverride_of_none (h : s.overrideOf key = none) : s.updateOverride key change = s := by
  unfold overrideOf at h
  unfold updateOverride
  rw [h]

theorem updateOverride_of_some {old : Override} (h : s.overrideOf key = some old) :
    s.updateOverride key change =
      if (change old).isEmpty then { s with overrides := s.overrides.erase key }
      else { s with overrides := s.overrides.insert key (change old) } := by
  unfold overrideOf at h
  unfold updateOverride
  rw [h]

theorem exists_updateOverride_eq (s : State) (key : EntityKey) (change : Override → Override) :
    ∃ overrides, s.updateOverride key change = { s with overrides } := by
  cases h : s.overrideOf key with
  | none => exact ⟨_, updateOverride_of_none h⟩
  | some old =>
    rw [updateOverride_of_some h]
    split
    · exact ⟨_, rfl⟩
    · exact ⟨_, rfl⟩

/-- What is on record after an override has changed was there before, or is the changed one. -/
theorem get?_overrides_updateOverride {o : Override}
    (h : (s.updateOverride key change).overrides.get? k = some o) :
    s.overrides.get? k = some o ∨
      k = key ∧ o.isEmpty = false ∧ ∃ old, s.overrideOf key = some old ∧ o = change old := by
  cases hold : s.overrideOf key with
  | none =>
    rw [updateOverride_of_none hold] at h
    exact .inl h
  | some old =>
    rw [updateOverride_of_some hold] at h
    split at h
    · rw [SortedMap.get?_erase] at h
      split at h
      · cases h
      · exact .inl h
    · rename_i hfields
      rw [SortedMap.get?_insert] at h
      split at h
      · rename_i hk
        cases h
        exact .inr ⟨hk, by simpa using hfields, old, rfl, rfl⟩
      · exact .inl h

theorem overrideOf_cases {old : Override} (h : s.overrideOf key = some old) :
    s.overrides.get? key = some old ∨ Override.empty? key.kind = some old := by
  unfold overrideOf at h
  cases hg : s.overrides.get? key with
  | none =>
    rw [hg] at h
    exact .inr h
  | some o =>
    rw [hg] at h
    exact .inl h

theorem kind_of_overrideOf (hs : s.Filed key) {o : Override} (h : s.overrideOf key = some o) :
    o.kind = key.kind := by
  rcases overrideOf_cases h with h | h
  · exact hs _ h
  · exact Override.kind_of_empty? h

theorem KindsMatch.updateOverride (hs : s.KindsMatch) (hkind : ∀ o, (change o).kind = o.kind) :
    (s.updateOverride key change).KindsMatch := by
  intro k o ho
  rcases get?_overrides_updateOverride ho with h | ⟨rfl, -, old, hold, rfl⟩
  · exact hs k o h
  · rw [hkind]
    exact kind_of_overrideOf (hs.filed k) hold

/-- Changing the override of an entity changes what is read of it, and of no other entity. -/
theorem overrideOf_updateOverride (hs : s.Filed key) (hkind : ∀ o, (change o).kind = o.kind) :
    (s.updateOverride key change).overrideOf k =
      if k = key then (s.overrideOf key).map change else s.overrideOf k := by
  cases hold : s.overrideOf key with
  | none =>
    rw [updateOverride_of_none hold]
    split
    · rename_i hk
      rw [hk, hold]
      rfl
    · rfl
  | some old =>
    rw [updateOverride_of_some hold]
    by_cases hk : k = key
    · subst hk
      split
      · -- The entry is dropped, and what is made anew in its place is the override it held.
        rename_i hempty
        have hanew := Override.empty?_of_isEmpty hempty
        rw [hkind, kind_of_overrideOf hs hold] at hanew
        simp [overrideOf, hanew]
      · simp [overrideOf]
    · split <;> simp [overrideOf, hk]

section
variable {α β : Type} {f : Facet α} {g : Facet β}

theorem read_set_self (hs : s.Filed key) (hkey : f.Of key.kind) (x : Option α) :
    (s.updateOverride key (f.set x)).read f key = x := by
  unfold read
  rw [overrideOf_updateOverride hs (f.kind_set x), if_pos rfl]
  cases ho : s.overrideOf key with
  | none =>
    unfold overrideOf at ho
    rw [Option.orElse_eq_orElse, Option.orElse_eq_or, Option.or_eq_none_iff] at ho
    have := f.empty_of _ hkey
    rw [ho.2] at this
    cases this
  | some o => exact f.get_set x o (by rw [kind_of_overrideOf hs ho]; exact hkey)

theorem read_set_of_ne (hs : s.KindsMatch) (hk : k ≠ key) (x : Option α) :
    (s.updateOverride key (f.set x)).read g k = s.read g k := by
  unfold read
  rw [overrideOf_updateOverride (hs.filed _) (f.kind_set x), if_neg hk]

/-- Setting a field does not change what is read of another one. -/
theorem read_set_of_apart (hs : s.KindsMatch) (hfg : f.Apart g) (x : Option α) :
    (s.updateOverride key (f.set x)).read g k = s.read g k := by
  unfold read
  rw [overrideOf_updateOverride (hs.filed _) (f.kind_set x)]
  split
  · rename_i hk
    rw [hk]
    cases s.overrideOf key with
    | none => rfl
    | some o => exact hfg x o
  · rfl

theorem get?_bind (s : State) (f : Facet α) (key : EntityKey) :
    (s.overrides.get? key).bind f.get = s.read f key := by
  unfold read overrideOf
  cases s.overrides.get? key with
  | none =>
    cases he : Override.empty? key.kind with
    | none => rfl
    | some o => exact (f.get_empty _ o he).symm
  | some o => rfl

theorem getD_differing [DecidableEq α] (a b : α) : (differing (some a) b).getD a = b := by
  unfold differing
  split
  · rename_i h; exact Option.some.inj h
  · rfl

theorem differing_or [DecidableEq α] (a : Option α) (b : α) : (differing a b <|> a) = some b := by
  unfold differing
  split
  · rename_i h; rw [h]; rfl
  · rfl
end
end State

/-! ### Setters as writes -/

namespace State

open Override (Facet)

variable (s : State) (c : Catalog)

theorem setPlacement_eq (i : EntityId) (p : Placement) :
    s.setPlacement c i p =
      s.updateOverride (.item i)
        (Facet.placement.set (differing (some (c.initialPlacement i)) p)) :=
  rfl

theorem moveCharacter_eq (p l : EntityId) :
    s.moveCharacter c p l =
      s.updateOverride (.character p)
        (Facet.location.set (differing ((c.characters.get? p).bind (·.location)) l)) :=
  rfl

theorem setLocked_eq (x : EntityId) (b : Bool) :
    s.setLocked c x b =
      s.updateOverride (.exit x)
        (Facet.locked.set (differing (some ((c.exits.get? x).any (·.locked))) b)) :=
  rfl

theorem setHidden_eq (x : EntityId) (b : Bool) :
    s.setHidden c x b =
      s.updateOverride (.exit x)
        (Facet.hidden.set (differing (some ((c.exits.get? x).any (·.hidden))) b)) :=
  rfl

theorem describe_eq {key : EntityKey} (h : key.kind.overridable = true) (text : String) :
    s.describe c key text =
      s.updateOverride key (Facet.description.set (differing (c.authoredDescription? key) text)) :=
  if_pos h

end State

/-! ### Look-ups as readings -/

namespace View

variable {v : View}

theorem recordedPlacement_eq (i : EntityId) :
    v.recordedPlacement i =
      (v.state.read .placement (.item i)).getD (v.catalog.initialPlacement i) := by
  unfold recordedPlacement override?
  rw [← State.get?_bind]
  rfl

def standing? (v : View) (p : EntityId) : Option EntityId := (v.character? p).bind (·.location)

def locked? (v : View) (x : EntityId) : Option Bool := (v.exit? x).map (·.locked)

def hidden? (v : View) (x : EntityId) : Option Bool := (v.exit? x).map (·.hidden)

theorem standing_eq (p : EntityId) :
    v.standing? p = (v.catalog.characters.get? p).bind fun d =>
      v.state.read .location (.character p) <|> d.location := by
  unfold standing? character? override?
  rw [← State.get?_bind]
  cases v.catalog.characters.get? p with
  | none => rfl
  | some d =>
    cases v.state.overrides.get? (.character p) with
    | none => rfl
    | some o => cases o <;> rfl

theorem locked_eq (x : EntityId) :
    v.locked? x = (v.catalog.exits.get? x).map fun d =>
      (v.state.read .locked (.exit x)).getD d.locked := by
  unfold locked? exit? override?
  rw [← State.get?_bind]
  cases v.catalog.exits.get? x with
  | none => rfl
  | some d =>
    cases v.state.overrides.get? (.exit x) with
    | none => rfl
    | some o => cases o <;> rfl

theorem hidden_eq (x : EntityId) :
    v.hidden? x = (v.catalog.exits.get? x).map fun d =>
      (v.state.read .hidden (.exit x)).getD d.hidden := by
  unfold hidden? exit? override?
  rw [← State.get?_bind]
  cases v.catalog.exits.get? x with
  | none => rfl
  | some d =>
    cases v.state.overrides.get? (.exit x) with
    | none => rfl
    | some o => cases o <;> rfl

end View

def Resolved.description : Resolved → String
  | location d => d.description
  | item d => d.description
  | character d => d.description
  | exit d => d.description

namespace View

def text? (v : View) (key : EntityKey) : Option String := (v.resolve? key).map Resolved.description

variable {v : View}

theorem text_eq {key : EntityKey} (hv : v.state.Filed key) :
    v.text? key = (v.catalog.authoredDescription? key).map fun d =>
      (v.state.read .description key).getD d := by
  obtain ⟨kind, id⟩ := key
  rw [← State.get?_bind]
  cases kind
  case location =>
    unfold text? resolve? location? override? Catalog.authoredDescription?
    cases v.catalog.locations.get? id <;> rfl
  case item =>
    unfold text? resolve? item? override? Catalog.authoredDescription?
    cases v.catalog.items.get? id with
    | none => rfl
    | some d =>
      cases ho : v.state.overrides.get? (.item id) with
      | none => rfl
      | some o =>
        obtain ⟨p, _, rfl⟩ := Override.eq_item (hv _ ho)
        cases p <;> rfl
  case character =>
    unfold text? resolve? character? override? Catalog.authoredDescription?
    cases v.catalog.characters.get? id with
    | none => rfl
    | some d =>
      cases ho : v.state.overrides.get? (.character id) with
      | none => rfl
      | some o =>
        obtain ⟨_, _, rfl⟩ := Override.eq_character (hv _ ho)
        rfl
  case exit =>
    unfold text? resolve? exit? override? Catalog.authoredDescription?
    cases v.catalog.exits.get? id with
    | none => rfl
    | some d =>
      cases ho : v.state.overrides.get? (.exit id) with
      | none => rfl
      | some o =>
        obtain ⟨_, _, _, rfl⟩ := Override.eq_exit (hv _ ho)
        rfl
  all_goals rfl

end View
end Storyworld
