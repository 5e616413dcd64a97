/-!
# Sorted maps

A finite map is the list of its entries in strictly increasing key order, so that two maps are equal
as values exactly when they hold the same entries, and a listing of a map has one possible order.
`get?_insert`, `get?_erase` and `get?_filter` say what each operation does to the look-up;
`ext_get?` says that the look-up determines the map, and `ofList_toList` that its entries do.
-/

namespace Storyworld

variable {κ : Type} {α : Type} {β : Type} [Ord κ]

/-- A finite map whose entries are listed by increasing key. -/
structure SortedMap (κ : Type) (α : Type) [Ord κ] where
  toList : List (κ × α)
  sorted : toList.Pairwise fun a b => compare a.1 b.1 = .lt
  deriving DecidableEq

namespace SortedMap

def empty : SortedMap κ α := ⟨[], .nil⟩

instance : Inhabited (SortedMap κ α) := ⟨empty⟩
instance : EmptyCollection (SortedMap κ α) := ⟨empty⟩

/-! ### Look-up -/

def lookup (k : κ) : List (κ × α) → Option α
  | [] => none
  | e :: rest => if compare k e.1 = .eq then some e.2 else lookup k rest

def get? (m : SortedMap κ α) (k : κ) : Option α := lookup k m.toList

def contains (m : SortedMap κ α) (k : κ) : Bool := (m.get? k).isSome

def keys (m : SortedMap κ α) : List κ := m.toList.map (·.1)

/-- The values, in the order of their keys. -/
def values (m : SortedMap κ α) : List α := m.toList.map (·.2)

def isEmpty (m : SortedMap κ α) : Bool := m.toList.isEmpty

/-! ### Insertion -/

/-- Puts an entry at its place in a sorted list, replacing one with an equal key. -/
def place (k : κ) (v : α) : List (κ × α) → List (κ × α)
  | [] => [(k, v)]
  | e :: rest =>
    match compare k e.1 with
    | .lt => (k, v) :: e :: rest
    | .eq => (k, v) :: rest
    | .gt => e :: place k v rest

theorem mem_place {k : κ} {v : α} {l : List (κ × α)} {x : κ × α} (h : x ∈ place k v l) :
    x = (k, v) ∨ x ∈ l := by
  induction l with
  | nil => simpa [place] using h
  | cons e rest ih =>
    unfold place at h
    split at h <;> simp only [List.mem_cons] at h ⊢
    · exact h
    · rcases h with h | h
      · exact .inl h
      · exact .inr (.inr h)
    · rcases h with h | h
      · exact .inr (.inl h)
      · rcases ih h with h | h
        · exact .inl h
        · exact .inr (.inr h)

variable [Std.TransOrd κ] [Std.LawfulEqOrd κ]

theorem pairwise_place {k : κ} {v : α} {l : List (κ × α)}
    (h : l.Pairwise fun a b => compare a.1 b.1 = .lt) :
    (place k v l).Pairwise fun a b => compare a.1 b.1 = .lt := by
  induction l with
  | nil => simp [place]
  | cons e rest ih =>
    obtain ⟨he, hr⟩ := List.pairwise_cons.1 h
    unfold place
    split
    · rename_i hk
      refine List.pairwise_cons.2 ⟨fun x hx => ?_, h⟩
      rcases List.mem_cons.1 hx with rfl | hx
      · exact hk
      · exact Std.TransCmp.lt_trans hk (he x hx)
    · rename_i hk
      have hk := Std.LawfulEqCmp.eq_of_compare hk
      exact List.pairwise_cons.2 ⟨fun x hx => hk ▸ he x hx, hr⟩
    · rename_i hk
      refine List.pairwise_cons.2 ⟨fun x hx => ?_, ih hr⟩
      rcases mem_place hx with rfl | hx
      · exact Std.OrientedCmp.gt_iff_lt.1 hk
      · exact he x hx

/-- Stores a value under a key. -/
def insert (m : SortedMap κ α) (k : κ) (v : α) : SortedMap κ α :=
  ⟨place k v m.toList, pairwise_place m.sorted⟩

/-- The map of a list of entries; of two with one key the later stands. -/
def ofList (entries : List (κ × α)) : SortedMap κ α :=
  entries.foldl (fun m e => m.insert e.1 e.2) empty

omit [Std.TransOrd κ] [Std.LawfulEqOrd κ] in
def filter (keep : κ → α → Bool) (m : SortedMap κ α) : SortedMap κ α :=
  ⟨m.toList.filter fun e => keep e.1 e.2, m.sorted.sublist List.filter_sublist⟩

omit [Std.TransOrd κ] [Std.LawfulEqOrd κ] in
def erase (m : SortedMap κ α) (k : κ) : SortedMap κ α :=
  m.filter fun k' _ => compare k k' != .eq

/-! ### Laws of the look-up -/

omit [Std.TransOrd κ] [Std.LawfulEqOrd κ] in
@[simp] theorem get?_empty (k : κ) : (empty : SortedMap κ α).get? k = none := rfl

omit [Std.TransOrd κ] [Std.LawfulEqOrd κ] in
theorem get?_of_isEmpty {m : SortedMap κ α} (h : m.isEmpty = true) (k : κ) : m.get? k = none := by
  unfold get?
  rw [List.isEmpty_iff.1 h]
  rfl

omit [Std.TransOrd κ] in
theorem lookup_place [DecidableEq κ] (k k' : κ) (v : α) (l : List (κ × α)) :
    lookup k' (place k v l) = if k' = k then some v else lookup k' l := by
  induction l with
  | nil =>
    by_cases h : k' = k
    · simp [place, lookup, h]
    · simp [place, lookup, h]
  | cons e rest ih =>
    unfold place
    split
    · rename_i hk
      by_cases h : k' = k
      · simp [lookup, h]
      · simp [lookup, h]
    · rename_i hk
      have hk := Std.LawfulEqCmp.eq_of_compare hk
      by_cases h : k' = k
      · simp [lookup, h]
      · simp [lookup, h, ← hk]
    · rename_i hk
      have hne : k ≠ e.1 := fun h => by simp [h] at hk
      by_cases h : k' = k
      · subst h; simp [lookup, hne, ih]
      · simp [lookup, h, ih]

@[simp] theorem get?_insert [DecidableEq κ] (m : SortedMap κ α) (k k' : κ) (v : α) :
    (m.insert k v).get? k' = if k' = k then some v else m.get? k' :=
  lookup_place k k' v m.toList

omit [Std.TransOrd κ] in
theorem lookup_eq_some_of_mem {l : List (κ × α)}
    (h : l.Pairwise fun a b => compare a.1 b.1 = .lt) {k : κ} {v : α} (hm : (k, v) ∈ l) :
    lookup k l = some v := by
  induction l with
  | nil => simp at hm
  | cons e rest ih =>
    obtain ⟨he, hr⟩ := List.pairwise_cons.1 h
    rcases List.mem_cons.1 hm with rfl | hm
    · simp [lookup]
    · have hlt := he _ hm
      have hne : k ≠ e.1 := fun heq => by simp [heq] at hlt
      simp [lookup, hne, ih hr hm]

omit [Std.TransOrd κ] in
theorem mem_of_lookup_eq_some {l : List (κ × α)} {k : κ} {v : α} (h : lookup k l = some v) :
    (k, v) ∈ l := by
  induction l with
  | nil => simp [lookup] at h
  | cons e rest ih =>
    unfold lookup at h
    split at h
    · rename_i hk
      have hk := Std.LawfulEqCmp.eq_of_compare hk
      obtain rfl := Option.some.inj h
      exact List.mem_cons.2 (.inl (by rw [hk]))
    · exact List.mem_cons_of_mem _ (ih h)

omit [Std.TransOrd κ] in
theorem get?_eq_some_iff {m : SortedMap κ α} {k : κ} {v : α} :
    m.get? k = some v ↔ (k, v) ∈ m.toList :=
  ⟨mem_of_lookup_eq_some, lookup_eq_some_of_mem m.sorted⟩

omit [Std.TransOrd κ] in
theorem get?_filter (keep : κ → α → Bool) (m : SortedMap κ α) (k : κ) :
    (m.filter keep).get? k = (m.get? k).filter (keep k) := by
  apply Option.ext
  intro v
  rw [get?_eq_some_iff, Option.filter_eq_some_iff, get?_eq_some_iff]
  simp [filter, List.mem_filter]

omit [Std.TransOrd κ] in
@[simp] theorem get?_erase [DecidableEq κ] (m : SortedMap κ α) (k k' : κ) :
    (m.erase k).get? k' = if k' = k then none else m.get? k' := by
  unfold erase
  rw [get?_filter]
  by_cases h : k' = k
  · cases hg : m.get? k' <;> simp [h]
  · have hne : k ≠ k' := fun e => h e.symm
    cases hg : m.get? k' <;> simp [Option.filter, h, hne]

theorem toList_eq_of_lookup_eq {l₁ l₂ : List (κ × α)}
    (h₁ : l₁.Pairwise fun a b => compare a.1 b.1 = .lt)
    (h₂ : l₂.Pairwise fun a b => compare a.1 b.1 = .lt)
    (h : ∀ k v, (k, v) ∈ l₁ ↔ (k, v) ∈ l₂) : l₁ = l₂ := by
  induction l₁ generalizing l₂ with
  | nil =>
    cases l₂ with
    | nil => rfl
    | cons e rest => exact absurd ((h e.1 e.2).2 List.mem_cons_self) (by simp)
  | cons e rest ih =>
    cases l₂ with
    | nil => exact absurd ((h e.1 e.2).1 List.mem_cons_self) (by simp)
    | cons e' rest' =>
      obtain ⟨he, hr⟩ := List.pairwise_cons.1 h₁
      obtain ⟨he', hr'⟩ := List.pairwise_cons.1 h₂
      have heq : e = e' := by
        rcases List.mem_cons.1 ((h e.1 e.2).1 List.mem_cons_self) with h1 | h1
        · exact h1
        · rcases List.mem_cons.1 ((h e'.1 e'.2).2 List.mem_cons_self) with h2 | h2
          · exact h2.symm
          · have hlt := he' _ h1
            have hgt := he _ h2
            have := Std.TransCmp.lt_trans hlt hgt
            simp at this
      subst heq
      refine congrArg (e :: ·) (ih hr hr' fun k v => ⟨fun hm => ?_, fun hm => ?_⟩)
      · rcases List.mem_cons.1 ((h k v).1 (List.mem_cons_of_mem _ hm)) with h1 | h1
        · subst h1; have := he _ hm; simp at this
        · exact h1
      · rcases List.mem_cons.1 ((h k v).2 (List.mem_cons_of_mem _ hm)) with h1 | h1
        · subst h1; have := he' _ hm; simp at this
        · exact h1

theorem ext_get? {m₁ m₂ : SortedMap κ α} (h : ∀ k, m₁.get? k = m₂.get? k) : m₁ = m₂ := by
  have hl : m₁.toList = m₂.toList :=
    toList_eq_of_lookup_eq m₁.sorted m₂.sorted fun k v => by
      rw [← get?_eq_some_iff, ← get?_eq_some_iff, h]
  cases m₁; cases m₂; simpa using hl

/-! ### Maps of lists -/

theorem get?_foldl_insert [DecidableEq κ] (m : SortedMap κ α) {es : List (κ × α)}
    (h : es.Pairwise fun a b => compare a.1 b.1 = .lt) (k : κ) :
    (es.foldl (fun m e => m.insert e.1 e.2) m).get? k = (lookup k es).or (m.get? k) := by
  induction es generalizing m with
  | nil => rfl
  | cons e es ih =>
    obtain ⟨he, hes⟩ := List.pairwise_cons.1 h
    rw [List.foldl_cons, ih _ hes, get?_insert]
    by_cases hk : k = e.1
    · have hnone : lookup k es = none := by
        cases hl : lookup k es with
        | none => rfl
        | some v =>
          have := he _ (mem_of_lookup_eq_some hl)
          rw [hk] at this
          simp at this
      rw [hnone, if_pos hk]
      simp [lookup, hk]
    · simp [lookup, hk]

theorem ofList_toList [DecidableEq κ] (m : SortedMap κ α) : ofList m.toList = m := by
  apply ext_get?
  intro k
  rw [ofList, get?_foldl_insert _ m.sorted]
  exact Option.or_none

end SortedMap
end Storyworld
