/-!
# Entities

Everything a world declares has a kind and an identifier that is unique within its kind. A key is
the pair, written `kind:id`; `EntityKey.parse_text` says that every key with a non-empty identifier
is read back from its written form. Keys are ordered by kind, in the order of the catalog's
sections, and then by identifier.
-/

namespace Storyworld

/-- The identifier of an entity, as its author wrote it. -/
abbrev EntityId := String

inductive EntityKind
  | location | item | character | exit | interaction | beat | spoke | act | victory
  deriving DecidableEq, Repr, Inhabited

namespace EntityKind

/-- All kinds, in the order of the catalog's sections. -/
def all : List EntityKind :=
  [location, item, character, exit, interaction, beat, spoke, act, victory]

theorem mem_all (k : EntityKind) : k ∈ all := by cases k <;> decide

def name : EntityKind → String
  | location => "location"
  | item => "item"
  | character => "character"
  | exit => "exit"
  | interaction => "interaction"
  | beat => "beat"
  | spoke => "spoke"
  | act => "act"
  | victory => "victory"

def ofName? (s : String) : Option EntityKind := all.find? (·.name == s)

@[simp] theorem ofName?_name (k : EntityKind) : ofName? k.name = some k := by cases k <;> decide

def rank : EntityKind → Nat
  | location => 0
  | item => 1
  | character => 2
  | exit => 3
  | interaction => 4
  | beat => 5
  | spoke => 6
  | act => 7
  | victory => 8

theorem rank_injective {k l : EntityKind} (h : k.rank = l.rank) : k = l := by
  cases k <;> cases l <;> first | rfl | cases h

instance : Ord EntityKind := ⟨fun k l => compare k.rank l.rank⟩

instance : Std.TransOrd EntityKind := inferInstanceAs (Std.TransCmp (compareOn rank))

instance : Std.LawfulEqOrd EntityKind where
  eq_of_compare {k l} h := by
    have h : compare k.rank l.rank = .eq := h
    exact rank_injective (Std.LawfulEqCmp.eq_of_compare h)

/-- Whether entities of this kind have fields that play can override. -/
def overridable : EntityKind → Bool
  | location | item | character | exit => true
  | _ => false

end EntityKind

/-- The address of one declared entity. -/
structure EntityKey where
  kind : EntityKind
  id : EntityId
  deriving DecidableEq, Repr, Inhabited

/-- Why a text is no key. -/
inductive KeyError
  | noColon (text : String)
  | unknownKind (name : String)
  | emptyId (text : String)
  deriving DecidableEq, Repr

def KeyError.message : KeyError → String
  | noColon s => "expected `kind:id`, got `" ++ s ++ "`"
  | unknownKind k => "unknown entity kind `" ++ k ++ "`"
  | emptyId s => "empty identifier in `" ++ s ++ "`"

namespace EntityKey

instance : Ord EntityKey := ⟨compareLex (compareOn kind) (compareOn id)⟩

instance : Std.TransOrd EntityKey :=
  inferInstanceAs (Std.TransCmp (compareLex (compareOn kind) (compareOn id)))

instance : Std.LawfulEqOrd EntityKey where
  eq_of_compare {a b} h := by
    have h : (compare a.kind b.kind).then (compare a.id b.id) = .eq := h
    obtain ⟨hk, hi⟩ := Ordering.then_eq_eq.1 h
    have hk := Std.LawfulEqCmp.eq_of_compare hk
    have hi := Std.LawfulEqCmp.eq_of_compare hi
    cases a; cases b; simp_all

abbrev location (id : EntityId) : EntityKey := ⟨.location, id⟩
abbrev item (id : EntityId) : EntityKey := ⟨.item, id⟩
abbrev character (id : EntityId) : EntityKey := ⟨.character, id⟩
abbrev exit (id : EntityId) : EntityKey := ⟨.exit, id⟩
abbrev interaction (id : EntityId) : EntityKey := ⟨.interaction, id⟩
abbrev beat (id : EntityId) : EntityKey := ⟨.beat, id⟩
abbrev spoke (id : EntityId) : EntityKey := ⟨.spoke, id⟩
abbrev act (id : EntityId) : EntityKey := ⟨.act, id⟩
abbrev victory (id : EntityId) : EntityKey := ⟨.victory, id⟩

/-- The written form `kind:id`. -/
def text (k : EntityKey) : String := k.kind.name ++ ":" ++ k.id

/-- Reads a written key: the kind ends at the first colon. -/
def parse (s : String) : Except KeyError EntityKey :=
  match s.toList.dropWhile (· != ':') with
  | [] => .error (.noColon s)
  | _ :: id =>
    let name := String.ofList (s.toList.takeWhile (· != ':'))
    match EntityKind.ofName? name with
    | none => .error (.unknownKind name)
    | some kind => if id.isEmpty then .error (.emptyId s) else .ok ⟨kind, String.ofList id⟩

theorem colon_not_mem_name (k : EntityKind) : ∀ c ∈ k.name.toList, (c != ':') = true := by
  apply List.all_eq_true.1
  cases k <;> rfl

theorem toList_text (k : EntityKey) : k.text.toList = k.kind.name.toList ++ ':' :: k.id.toList := by
  simp [text]

theorem dropWhile_text (k : EntityKey) :
    k.text.toList.dropWhile (· != ':') = ':' :: k.id.toList := by
  rw [toList_text, List.dropWhile_append_of_pos (colon_not_mem_name _)]; rfl

theorem takeWhile_text (k : EntityKey) :
    k.text.toList.takeWhile (· != ':') = k.kind.name.toList := by
  rw [toList_text, List.takeWhile_append_of_pos (colon_not_mem_name _)]; simp

/-- A key with a non-empty identifier is read back from its written form. -/
theorem parse_text {k : EntityKey} (h : k.id ≠ "") : parse k.text = .ok k := by
  have hne : k.id.toList.isEmpty = false := by
    cases hl : k.id.toList with
    | nil => exact absurd (by rw [← String.ofList_toList (s := k.id), hl]) h
    | cons c r => rfl
  unfold parse
  rw [dropWhile_text, takeWhile_text]
  simp [hne]

theorem parse_text_of_empty {k : EntityKey} (h : k.id = "") :
    parse k.text = .error (.emptyId k.text) := by
  unfold parse
  rw [dropWhile_text, takeWhile_text]
  simp [h]

theorem text_of_parse {s : String} {k : EntityKey} (h : parse s = .ok k) :
    k.text = s ∧ k.id ≠ "" := by
  unfold parse at h
  split at h
  · cases h
  · rename_i c id hd
    dsimp only at h
    split at h
    · cases h
    · rename_i kind hk
      split at h
      · cases h
      · rename_i hne
        obtain rfl := Except.ok.inj h
        have hname : kind.name = String.ofList (s.toList.takeWhile (· != ':')) := by
          have := List.find?_some hk
          simpa using this
        have hc : c = ':' := by
          have := List.head?_dropWhile_not (fun x => x != ':') s.toList
          rw [hd] at this
          simpa using this
        refine ⟨?_, fun he => ?_⟩
        · apply String.toList_injective
          rw [toList_text]
          simp only [hname, String.toList_ofList]
          subst hc
          rw [← hd, List.takeWhile_append_dropWhile]
        · apply hne
          have : (String.ofList id).toList = [] := by simp only at he; rw [he]; rfl
          rw [String.toList_ofList] at this
          simp [this]

end EntityKey
end Storyworld
