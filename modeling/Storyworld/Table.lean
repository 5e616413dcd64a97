import Storyworld.Definition

/-!
# Tables

The definitions of one kind in the order of their declaration, no two with one identifier. A table
is made of a list by keeping the first declaration of every identifier; `duplicates` lists the rest.
`get?_eq_some_iff` says that looking up finds exactly the members.
-/

namespace Storyworld

variable {α : Type} [Definition α]

/-- Definitions of one kind, in declaration order. -/
structure Table (α : Type) [Definition α] where
  toList : List α
  nodup : (toList.map Definition.id).Nodup

namespace Table

def empty : Table α := ⟨[], .nil⟩

instance : Inhabited (Table α) := ⟨empty⟩

/-- Keeps the first definition of every identifier. -/
def firsts : List α → List α
  | [] => []
  | d :: ds => d :: (firsts ds).filter fun e => Definition.id e != Definition.id d

theorem nodup_firsts (ds : List α) : ((firsts ds).map Definition.id).Nodup := by
  induction ds with
  | nil => exact .nil
  | cons d ds ih =>
    simp only [firsts, List.map_cons, List.nodup_cons, List.mem_map, List.mem_filter]
    refine ⟨fun ⟨e, he, hid⟩ => by simp [hid] at he, ?_⟩
    exact ih.sublist (List.filter_sublist.map _)

theorem firsts_eq_self {ds : List α} (h : (ds.map Definition.id).Nodup) : firsts ds = ds := by
  induction ds with
  | nil => rfl
  | cons d ds ih =>
    obtain ⟨hd, hds⟩ := List.nodup_cons.1 h
    rw [firsts, ih hds, List.filter_eq_self.2]
    intro e he
    have hne : Definition.id e ≠ Definition.id d := fun hid => hd (hid ▸ List.mem_map_of_mem he)
    simpa using hne

/-- The table of a list of definitions; the first declaration of an identifier stands. -/
def ofList (ds : List α) : Table α := ⟨firsts ds, nodup_firsts ds⟩

/-- The identifiers that are declared again, once for each repetition. -/
def duplicates (ds : List α) : List EntityId := go [] ds
where
  /-- Walks the definitions with the identifiers seen so far. -/
  go (seen : List EntityId) : List α → List EntityId
    | [] => []
    | d :: ds =>
      let id := Definition.id d
      if seen.contains id then id :: go seen ds else go (id :: seen) ds

theorem nodup_of_duplicates_go {seen : List EntityId} {ds : List α}
    (h : duplicates.go seen ds = []) :
    (ds.map Definition.id).Nodup ∧ ∀ d ∈ ds, Definition.id d ∉ seen := by
  induction ds generalizing seen with
  | nil => exact ⟨.nil, fun _ hd => nomatch hd⟩
  | cons d ds ih =>
    unfold duplicates.go at h
    dsimp only at h
    split at h
    · cases h
    · rename_i hseen
      obtain ⟨hnodup, hnew⟩ := ih h
      constructor
      · refine List.nodup_cons.2 ⟨fun hmem => ?_, hnodup⟩
        obtain ⟨e, he, hid⟩ := List.mem_map.1 hmem
        exact hnew e he (hid ▸ .head _)
      · intro e he
        rcases List.mem_cons.1 he with rfl | he
        · simpa using hseen
        · exact fun hmem => hnew e he (.tail _ hmem)

theorem nodup_of_duplicates {ds : List α} (h : duplicates ds = []) :
    (ds.map Definition.id).Nodup := (nodup_of_duplicates_go h).1

def get? (t : Table α) (id : EntityId) : Option α := t.toList.find? (Definition.id · == id)

def contains (t : Table α) (id : EntityId) : Bool := t.toList.any (Definition.id · == id)

/-- The position of an identifier in the order of declaration. -/
def position? (t : Table α) (id : EntityId) : Option Nat :=
  t.toList.findIdx? (Definition.id · == id)

def size (t : Table α) : Nat := t.toList.length

theorem lt_size_of_position? {t : Table α} {id : EntityId} {i : Nat} (h : t.position? id = some i) :
    i < t.size := (List.findIdx?_eq_some_iff_getElem.1 h).1

theorem contains_eq_isSome_get? (t : Table α) (id : EntityId) :
    t.contains id = (t.get? id).isSome := by
  unfold contains get?
  induction t.toList with
  | nil => rfl
  | cons d ds ih =>
    by_cases h : Definition.id d == id
    · simp [h]
    · simp [h, ih]

theorem contains_iff_exists {t : Table α} {id : EntityId} :
    t.contains id = true ↔ ∃ d, t.get? id = some d := by
  rw [contains_eq_isSome_get?, Option.isSome_iff_exists]

theorem contains_of_mem {t : Table α} {d : α} (h : d ∈ t.toList) :
    t.contains (Definition.id d) = true :=
  List.any_eq_true.2 ⟨d, h, beq_self_eq_true _⟩

theorem id_of_get? {t : Table α} {id : EntityId} {d : α} (h : t.get? id = some d) :
    Definition.id d = id := by
  have := List.find?_some h
  simpa using this

theorem mem_of_get? {t : Table α} {id : EntityId} {d : α} (h : t.get? id = some d) :
    d ∈ t.toList := List.mem_of_find?_eq_some h

theorem eq_of_id_eq {ds : List α} (h : (ds.map Definition.id).Nodup) {d e : α} (hd : d ∈ ds)
    (he : e ∈ ds) (hid : Definition.id d = Definition.id e) : d = e := by
  induction ds with
  | nil => cases hd
  | cons a ds ih =>
    simp only [List.map_cons, List.nodup_cons, List.mem_map, not_exists, not_and] at h
    rcases List.mem_cons.1 hd with hd | hd <;> rcases List.mem_cons.1 he with he | he
    · rw [hd, he]
    · exact absurd (hd ▸ hid.symm) (h.1 e he)
    · exact absurd (he ▸ hid) (h.1 d hd)
    · exact ih h.2 hd he

theorem get?_eq_some_iff {t : Table α} {id : EntityId} {d : α} :
    t.get? id = some d ↔ d ∈ t.toList ∧ Definition.id d = id := by
  refine ⟨fun h => ⟨mem_of_get? h, id_of_get? h⟩, fun ⟨hm, hid⟩ => ?_⟩
  cases hg : t.get? id with
  | none =>
    have := List.find?_eq_none.1 hg d hm
    simp [hid] at this
  | some e =>
    exact congrArg some (eq_of_id_eq t.nodup (mem_of_get? hg) hm (by rw [id_of_get? hg, hid]))

end Table
end Storyworld
