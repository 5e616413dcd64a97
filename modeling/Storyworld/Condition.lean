import Storyworld.Entity
import Storyworld.Flag

/-!
# Conditions

A condition is a boolean combination of atoms, each of which asks the session one question. `eval`
gives the combination its meaning from the answers to the atoms; `possible` is its optimistic
reading, which takes every negation for satisfiable. `references`, `flagsRead` and `spokes` walk the
atoms in order of appearance. `eval_congr` says that a condition depends on its atoms only, and
`possible_of_eval` that the optimistic reading accepts what holds.
-/

namespace Storyworld

/-- How a counter is compared with a value. -/
inductive Comparison
  | eq | ne | lt | le | gt | ge
  deriving DecidableEq, Repr

namespace Comparison

/-- A comparison that is not given reads as at least. -/
instance : Inhabited Comparison := ⟨ge⟩

def all : List Comparison := [eq, ne, lt, le, gt, ge]

def sign : Comparison → String
  | eq => "=="
  | ne => "!="
  | lt => "<"
  | le => "<="
  | gt => ">"
  | ge => ">="

def ofSign? (s : String) : Option Comparison := all.find? (·.sign == s)

@[simp] theorem ofSign?_sign (c : Comparison) : ofSign? c.sign = some c := by cases c <;> decide

def holds : Comparison → Count → Count → Bool
  | eq, a, b => a == b
  | ne, a, b => a != b
  | lt, a, b => a < b
  | le, a, b => a ≤ b
  | gt, a, b => b < a
  | ge, a, b => b ≤ a

end Comparison

/-- One question about the session. -/
inductive Atom
  /-- The flag is set to a truthy value. -/
  | flag (name : String)
  /-- The flag is set to exactly this value. -/
  | flagEquals (name : String) (value : FlagValue)
  /-- The item is carried. -/
  | hasItem (item : EntityId)
  /-- The item lies in the location. -/
  | itemAt (item location : EntityId)
  /-- The player stands in the location. -/
  | at (location : EntityId)
  /-- The counter of a character compares with the value. -/
  | counter (character : EntityId) (name : String) (cmp : Comparison) (value : Count)
  /-- The spoke is recorded as complete, or its condition holds. -/
  | spoke (spoke : EntityId)
  /-- The beat has fired. -/
  | beatFired (beat : EntityId)
  /-- The act is current or past. -/
  | actReached (act : EntityId)
  /-- The interaction, which runs once, has run. -/
  | interactionUsed (interaction : EntityId)
  deriving DecidableEq, Repr

namespace Atom

def references : Atom → List EntityKey
  | flag _ | flagEquals _ _ => []
  | hasItem item => [.item item]
  | itemAt item location => [.item item, .location location]
  | «at» location => [.location location]
  | counter character _ _ _ => [.character character]
  | spoke s => [.spoke s]
  | beatFired b => [.beat b]
  | actReached a => [.act a]
  | interactionUsed i => [.interaction i]

def flagRead? : Atom → Option String
  | flag name | flagEquals name _ => some name
  | _ => none

def spoke? : Atom → Option EntityId
  | spoke s => some s
  | _ => none

theorem spoke?_eq_some_iff {a : Atom} {s : EntityId} : a.spoke? = some s ↔ a = spoke s := by
  cases a <;> simp [spoke?]

end Atom

/-- A boolean combination of atoms. -/
inductive Condition
  | always
  | atom (a : Atom)
  | not (c : Condition)
  | all (cs : List Condition)
  | any (cs : List Condition)
  deriving Repr

namespace Condition

instance : Inhabited Condition := ⟨always⟩

mutual
/-- The truth of a condition, given the truth of every atom. -/
def eval (f : Atom → Bool) : Condition → Bool
  | always => true
  | atom a => f a
  | not c => !c.eval f
  | all cs => evalAll f cs
  | any cs => evalAny f cs
def evalAll (f : Atom → Bool) : List Condition → Bool
  | [] => true
  | c :: cs => c.eval f && evalAll f cs
def evalAny (f : Atom → Bool) : List Condition → Bool
  | [] => false
  | c :: cs => c.eval f || evalAny f cs
end

theorem evalAll_eq (f : Atom → Bool) (cs : List Condition) :
    evalAll f cs = cs.all (eval f) := by
  induction cs with
  | nil => rfl
  | cons c cs ih => simp [evalAll, ih]

theorem evalAny_eq (f : Atom → Bool) (cs : List Condition) :
    evalAny f cs = cs.any (eval f) := by
  induction cs with
  | nil => rfl
  | cons c cs ih => simp [evalAny, ih]

mutual
/-- The optimistic truth of a condition: a negation may always come to hold. -/
def possible (f : Atom → Bool) : Condition → Bool
  | always => true
  | atom a => f a
  | not _ => true
  | all cs => possibleAll f cs
  | any cs => possibleAny f cs
def possibleAll (f : Atom → Bool) : List Condition → Bool
  | [] => true
  | c :: cs => c.possible f && possibleAll f cs
def possibleAny (f : Atom → Bool) : List Condition → Bool
  | [] => false
  | c :: cs => c.possible f || possibleAny f cs
end

theorem possibleAll_eq (f : Atom → Bool) (cs : List Condition) :
    possibleAll f cs = cs.all (possible f) := by
  induction cs with
  | nil => rfl
  | cons c cs ih => simp [possibleAll, ih]

theorem possibleAny_eq (f : Atom → Bool) (cs : List Condition) :
    possibleAny f cs = cs.any (possible f) := by
  induction cs with
  | nil => rfl
  | cons c cs ih => simp [possibleAny, ih]

mutual
/-- The atoms of a condition, in order of appearance. -/
def atoms : Condition → List Atom
  | always => []
  | atom a => [a]
  | not c => c.atoms
  | all cs => atomsOf cs
  | any cs => atomsOf cs
def atomsOf : List Condition → List Atom
  | [] => []
  | c :: cs => c.atoms ++ atomsOf cs
end

theorem atomsOf_eq (cs : List Condition) : atomsOf cs = cs.flatMap atoms := by
  induction cs with
  | nil => rfl
  | cons c cs ih => rw [atomsOf, ih, List.flatMap_cons]

theorem mem_atomsOf {cs : List Condition} {c : Condition} (hc : c ∈ cs) {a : Atom}
    (ha : a ∈ c.atoms) : a ∈ atomsOf cs := by
  rw [atomsOf_eq]
  exact List.mem_flatMap.2 ⟨c, hc, ha⟩

def references (c : Condition) : List EntityKey := c.atoms.flatMap Atom.references

def flagsRead (c : Condition) : List String := c.atoms.filterMap Atom.flagRead?

def spokes (c : Condition) : List EntityId := c.atoms.filterMap Atom.spoke?

mutual
/-- A condition depends on its atoms only. -/
theorem eval_congr {f g : Atom → Bool} :
    (c : Condition) → (∀ a ∈ c.atoms, f a = g a) → c.eval f = c.eval g
  | always, _ => rfl
  | atom a, h => h a (by simp [atoms])
  | not c, h => by
    have := eval_congr c h
    simp [eval, this]
  | all cs, h => (evalLists_congr cs h).1
  | any cs, h => (evalLists_congr cs h).2
theorem evalLists_congr {f g : Atom → Bool} :
    (cs : List Condition) → (∀ a ∈ atomsOf cs, f a = g a) →
      evalAll f cs = evalAll g cs ∧ evalAny f cs = evalAny g cs
  | [], _ => ⟨rfl, rfl⟩
  | c :: cs, h => by
    have h1 := eval_congr c fun a ha => h a (by simp [atomsOf, ha])
    have h2 := evalLists_congr cs fun a ha => h a (by simp [atomsOf, ha])
    simp [evalAll, evalAny, h1, h2.1, h2.2]
end

mutual
/-- The optimistic reading accepts what holds, if it accepts the atoms that hold. -/
theorem possible_of_eval {f g : Atom → Bool} :
    (c : Condition) → (∀ a ∈ c.atoms, f a = true → g a = true) → c.eval f = true →
      c.possible g = true
  | always, _, _ => rfl
  | atom a, hfg, h => hfg a (by simp [atoms]) h
  | not _, _, _ => rfl
  | all cs, hfg, h => (possibleLists_of_eval cs hfg).1 h
  | any cs, hfg, h => (possibleLists_of_eval cs hfg).2 h
theorem possibleLists_of_eval {f g : Atom → Bool} :
    (cs : List Condition) → (∀ a ∈ atomsOf cs, f a = true → g a = true) →
      (evalAll f cs = true → possibleAll g cs = true) ∧
      (evalAny f cs = true → possibleAny g cs = true)
  | [], _ => ⟨id, id⟩
  | c :: cs, hfg => by
    have h1 := possible_of_eval c fun a ha => hfg a (by simp [atomsOf, ha])
    have h2 := possibleLists_of_eval cs fun a ha => hfg a (by simp [atomsOf, ha])
    simp only [evalAll, evalAny, possibleAll, possibleAny, Bool.and_eq_true, Bool.or_eq_true]
    exact ⟨fun h => ⟨h1 h.1, h2.1 h.2⟩, fun h => h.imp h1 h2.2⟩
end

end Condition
end Storyworld
