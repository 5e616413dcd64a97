import Storyworld.SortedMap

/-!
# Sorted sets

A finite set is a sorted map that stores nothing under its members, so it has one listing and
equality is equality of members (`ext_mem`).
-/

namespace Storyworld

variable {κ : Type} [Ord κ]

/-- A finite set whose members are listed in increasing order. -/
structure SortedSet (κ : Type) [Ord κ] where
  members : SortedMap κ Unit
  deriving DecidableEq

namespace SortedSet

def empty : SortedSet κ := ⟨.empty⟩

instance : Inhabited (SortedSet κ) := ⟨empty⟩
instance : EmptyCollection (SortedSet κ) := ⟨empty⟩

def toList (s : SortedSet κ) : List κ := s.members.keys

def contains (s : SortedSet κ) (k : κ) : Bool := s.members.contains k

instance : Membership κ (SortedSet κ) := ⟨fun s k => s.contains k = true⟩

instance (s : SortedSet κ) (k : κ) : Decidable (k ∈ s) := inferInstanceAs (Decidable (_ = true))

def filter (keep : κ → Bool) (s : SortedSet κ) : SortedSet κ := ⟨s.members.filter fun k _ => keep k⟩

def erase (s : SortedSet κ) (k : κ) : SortedSet κ := ⟨s.members.erase k⟩

variable [Std.TransOrd κ] [Std.LawfulEqOrd κ]

def insert (s : SortedSet κ) (k : κ) : SortedSet κ := ⟨s.members.insert k ()⟩

def insertAll (s : SortedSet κ) (ks : List κ) : SortedSet κ := ks.foldl insert s

def ofList (ks : List κ) : SortedSet κ := insertAll empty ks

omit [Std.TransOrd κ] [Std.LawfulEqOrd κ] in
def eraseAll (s : SortedSet κ) (ks : List κ) : SortedSet κ := ks.foldl erase s

/-! ### Laws of membership -/

omit [Std.TransOrd κ] [Std.LawfulEqOrd κ] in
theorem mem_iff_contains {s : SortedSet κ} {k : κ} : k ∈ s ↔ s.contains k = true := Iff.rfl

omit [Std.TransOrd κ] [Std.LawfulEqOrd κ] in
theorem mem_iff_get? {s : SortedSet κ} {k : κ} : k ∈ s ↔ s.members.get? k = some () := by
  rw [mem_iff_contains]
  unfold contains SortedMap.contains
  cases s.members.get? k <;> simp

omit [Std.TransOrd κ] [Std.LawfulEqOrd κ] in
@[simp] theorem not_mem_empty (k : κ) : k ∉ (empty : SortedSet κ) := by
  rw [mem_iff_get?]; simp [empty]

omit [Std.TransOrd κ] in
@[simp] theorem mem_toList {s : SortedSet κ} {k : κ} : k ∈ s.toList ↔ k ∈ s := by
  rw [mem_iff_get?, SortedMap.get?_eq_some_iff]
  simp [toList, SortedMap.keys, List.mem_map, Prod.exists]
  exact ⟨fun ⟨_, h⟩ => h, fun h => ⟨(), h⟩⟩

@[simp] theorem mem_insert [DecidableEq κ] {s : SortedSet κ} {k k' : κ} :
    k' ∈ s.insert k ↔ k' = k ∨ k' ∈ s := by
  simp only [mem_iff_get?, insert, SortedMap.get?_insert]
  by_cases h : k' = k <;> simp [h]

omit [Std.TransOrd κ] in
@[simp] theorem mem_erase [DecidableEq κ] {s : SortedSet κ} {k k' : κ} :
    k' ∈ s.erase k ↔ k' ≠ k ∧ k' ∈ s := by
  simp only [mem_iff_get?, erase, SortedMap.get?_erase]
  by_cases h : k' = k <;> simp [h]

omit [Std.TransOrd κ] in
@[simp] theorem mem_filter {s : SortedSet κ} {keep : κ → Bool} {k : κ} :
    k ∈ s.filter keep ↔ k ∈ s ∧ keep k = true := by
  simp only [mem_iff_get?, filter, SortedMap.get?_filter]
  cases s.members.get? k <;> simp

@[simp] theorem mem_insertAll [DecidableEq κ] {ks : List κ} {s : SortedSet κ} {k : κ} :
    k ∈ s.insertAll ks ↔ k ∈ s ∨ k ∈ ks := by
  induction ks generalizing s with
  | nil => simp [insertAll]
  | cons a rest ih =>
    have h : s.insertAll (a :: rest) = (s.insert a).insertAll rest := rfl
    rw [h, ih, mem_insert, List.mem_cons, or_assoc, or_left_comm]

@[simp] theorem mem_ofList [DecidableEq κ] {ks : List κ} {k : κ} : k ∈ ofList ks ↔ k ∈ ks := by
  simp [ofList]

omit [Std.TransOrd κ] in
@[simp] theorem mem_eraseAll [DecidableEq κ] {ks : List κ} {s : SortedSet κ} {k : κ} :
    k ∈ s.eraseAll ks ↔ k ∈ s ∧ k ∉ ks := by
  induction ks generalizing s with
  | nil => simp [eraseAll]
  | cons a rest ih =>
    have h : s.eraseAll (a :: rest) = (s.erase a).eraseAll rest := rfl
    rw [h, ih, mem_erase, List.mem_cons, not_or, and_comm (a := k ≠ a), and_assoc]

theorem ext_mem {s t : SortedSet κ} (h : ∀ k, k ∈ s ↔ k ∈ t) : s = t := by
  have hm : s.members = t.members := SortedMap.ext_get? fun k => by
    have hk := h k
    rw [mem_iff_get?, mem_iff_get?] at hk
    cases hs : s.members.get? k <;> cases ht : t.members.get? k <;> simp_all
  cases s; cases t; simpa using hm

theorem ofList_toList [DecidableEq κ] (s : SortedSet κ) : ofList s.toList = s := by
  apply ext_mem
  intro k
  rw [mem_ofList, mem_toList]

end SortedSet
end Storyworld
