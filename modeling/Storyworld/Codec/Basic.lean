import Storyworld.Datum
import Storyworld.SortedSet
import Storyworld.Entity
import Storyworld.Flag

/-!
# Codecs of the simple values

How keys, kinds, counts, flag values, maps and sets stand in a document. `ofDatum?` reads and
`toDatum` writes; each reader takes back what its writer gives.
-/

namespace Storyworld

open Datum

namespace Datum

/-- How strict the record of a choice is about fields that it does not know. -/
def Format.choiceStrictness : Format → Strictness
  | .json => .lenient
  | .toml => .strict

def count? (d : Datum) : Option Count := d.int?.bind Count.ofInt?

def ofCount (n : Count) : Datum := int n.toInt

def natBelow? (limit : Nat) (d : Datum) : Option Nat :=
  d.int?.bind fun n => if 0 ≤ n ∧ n < limit then some n.toNat else none

def word? (d : Datum) : Option UInt64 := (d.natBelow? UInt64.size).map UInt64.ofNat

def ofWord (n : UInt64) : Datum := int n.toNat

def entries? {κ α : Type} (readKey : String → Option κ) (read : Datum → Option α) :
    Datum → Option (List (κ × α))
  | record fields => fields.mapM fun f => do return (← readKey f.1, ← read f.2)
  | _ => none

/-- Reads a map from texts; the last of several entries with one name stands. -/
def map? {α : Type} (read : Datum → Option α) (d : Datum) : Option (SortedMap String α) :=
  (d.entries? some read).map .ofList

def ofMap {α : Type} (write : α → Datum) (m : SortedMap String α) : Datum :=
  record (m.toList.map fun e => (e.1, write e.2))

def set? (d : Datum) : Option (SortedSet String) := (d.list? text?).map .ofList

def ofSet (s : SortedSet String) : Datum := ofList text s.toList

def texts? : Datum → Option (List String) := list? text?

def ofTexts : List String → Datum := ofList text

/-- A record with one field, which says which choice is meant. -/
def choice (name : String) (d : Datum) : Datum := record [(name, d)]

end Datum

def EntityKey.ofText? (s : String) : Option EntityKey := (EntityKey.parse s).toOption

def EntityKey.ofDatum? (d : Datum) : Option EntityKey := d.text?.bind ofText?

def EntityKey.toDatum (k : EntityKey) : Datum := .text k.text

def EntityKind.ofDatum? (fmt : Format) : Datum → Option EntityKind := choice? fmt all name

def EntityKind.toDatum (k : EntityKind) : Datum := .text k.name

def FlagValue.ofDatum? : Datum → Option FlagValue
  | .bool b => some (.bool b)
  | .int n => (Count.ofInt? n).map .integer
  | .text s => some (.text s)
  | _ => none

def FlagValue.toDatum : FlagValue → Datum
  | .bool b => .bool b
  | .integer n => ofCount n
  | .text s => .text s

/-! ### What was written is read back -/

namespace Datum

@[simp] theorem count?_ofCount (n : Count) : (ofCount n).count? = some n := by
  simp [ofCount, count?, int?]

theorem natBelow?_ofNat {limit n : Nat} (h : n < limit) : (int n).natBelow? limit = some n := by
  simp [natBelow?, int?, h]

@[simp] theorem word?_ofWord (n : UInt64) : (ofWord n).word? = some n := by
  rw [ofWord, word?, natBelow?_ofNat n.toNat_lt, Option.map_some, UInt64.ofNat_toNat]

theorem mapM_map_some {α β γ : Type} {read : β → Option γ} {write : α → β} {f : α → γ}
    {as : List α} (h : ∀ a ∈ as, read (write a) = some (f a)) :
    (as.map write).mapM read = some (as.map f) := by
  induction as with
  | nil => rfl
  | cons a as ih =>
    have ha := h a (.head _)
    have has := ih fun a ha => h a (.tail _ ha)
    rw [List.map_cons, List.mapM_cons, ha, has]
    rfl

theorem list?_ofList {α : Type} {read : Datum → Option α} {write : α → Datum}
    (h : ∀ a, read (write a) = some a) (as : List α) : (ofList write as).list? read = some as := by
  have has : (as.map write).mapM read = some (as.map id) := mapM_map_some fun a _ => h a
  rwa [List.map_id] at has

@[simp] theorem texts?_ofTexts (ss : List String) : (ofTexts ss).texts? = some ss := by
  have htext : ∀ s : String, text? (text s) = some s := fun _ => rfl
  exact list?_ofList htext ss

end Datum

theorem FlagValue.ofDatum?_toDatum (v : FlagValue) : ofDatum? v.toDatum = some v := by
  cases v <;> simp [toDatum, ofDatum?, ofCount]

end Storyworld
