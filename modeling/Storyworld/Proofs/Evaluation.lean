import Storyworld.Outlook
import Storyworld.Proofs.Closure
import Storyworld.Proofs.Dependence

/-!
# Evaluation comes to an end

To evaluate a condition is a recursion that leaves the condition wherever it follows a spoke to the
spoke's own condition. `View.holdsWithin?` and `Outlook.mayWithin?` are the two recursions with a
bound on the calls that stand in one another, and have no answer if the bound is too low. Where the
conditions of spokes ask about no spoke (`Catalog.SpokesApart`), which loading makes sure of, the
height of the condition and that of the highest condition of a spoke are bound enough for every
state and outlook, and the answers are those of `View.holds` and `Outlook.may` (`evaluation_ends`).
Where the first question in the condition of a spoke is about that spoke, no bound is ever enough
(`View.holdsWithin?_eq_none`).
-/

namespace Storyworld

namespace Condition

mutual
/-- How many conditions stand in one another. -/
def height : Condition → Nat
  | always | atom _ => 1
  | not c => c.height + 1
  | all cs | any cs => heightOf cs + 1
def heightOf : List Condition → Nat
  | [] => 0
  | c :: cs => max c.height (heightOf cs)
end

theorem height_le_heightOf {c : Condition} {cs : List Condition} (h : c ∈ cs) :
    c.height ≤ heightOf cs := by
  induction cs with
  | nil => cases h
  | cons d ds ih =>
    rcases List.mem_cons.1 h with rfl | h
    · exact Nat.le_max_left ..
    · exact Nat.le_trans (ih h) (Nat.le_max_right ..)

theorem height_pos (c : Condition) : 0 < c.height := by
  cases c <;> simp [height]

mutual
/-- The walk over a condition comes to nothing but the atoms that occur in it. -/
theorem mentions_of_mem_atoms {a : Atom} : (c : Condition) → a ∈ c.atoms → c.Mentions a
  | .always, h => nomatch h
  | .atom _, h => List.mem_singleton.1 h ▸ .atom
  | .not c, h => .not (mentions_of_mem_atoms c h)
  | .all cs, h =>
    have ⟨_, hc, h⟩ := exists_mentions_of_mem_atomsOf cs h
    .all hc h
  | .any cs, h =>
    have ⟨_, hc, h⟩ := exists_mentions_of_mem_atomsOf cs h
    .any hc h
theorem exists_mentions_of_mem_atomsOf {a : Atom} :
    (cs : List Condition) → a ∈ atomsOf cs → ∃ c ∈ cs, c.Mentions a
  | c :: cs, h =>
    (List.mem_append.1 h).elim (fun h => ⟨c, .head _, mentions_of_mem_atoms c h⟩) fun h =>
      have ⟨d, hd, h⟩ := exists_mentions_of_mem_atomsOf cs h
      ⟨d, .tail _ hd, h⟩
end

/-- The first question of the condition is about the spoke. -/
inductive Opens (x : EntityId) : Condition → Prop
  | atom : Opens x (.atom (.spoke x))
  | not {c : Condition} (h : Opens x c) : Opens x (.not c)
  | all {c : Condition} {cs : List Condition} (h : Opens x c) : Opens x (.all (c :: cs))
  | any {c : Condition} {cs : List Condition} (h : Opens x c) : Opens x (.any (c :: cs))

end Condition

theorem allM_eq_some {α : Type} {f : α → Option Bool} {g : α → Bool} {l : List α}
    (h : ∀ a ∈ l, f a = some (g a)) : l.allM f = some (l.all g) := by
  induction l with
  | nil => rfl
  | cons a l ih =>
    obtain ⟨ha, hl⟩ := List.forall_mem_cons.1 h
    rw [List.allM, ha, List.all_cons, Option.bind_eq_bind, Option.bind_some]
    cases g a
    · rfl
    · exact ih hl

theorem anyM_eq_some {α : Type} {f : α → Option Bool} {g : α → Bool} {l : List α}
    (h : ∀ a ∈ l, f a = some (g a)) : l.anyM f = some (l.any g) := by
  induction l with
  | nil => rfl
  | cons a l ih =>
    obtain ⟨ha, hl⟩ := List.forall_mem_cons.1 h
    rw [List.anyM, ha, List.any_cons, Option.bind_eq_bind, Option.bind_some]
    cases g a
    · exact ih hl
    · rfl

/-- The truth of a condition, found by following the spokes that are not recorded; none if that takes
more calls inside one another than given. -/
def View.holdsWithin? (v : View) : Nat → Condition → Option Bool
  | 0, _ => none
  | _ + 1, .always => some true
  | n + 1, .atom (.spoke x) =>
    if v.spokeRecorded x then some true
    else
      match v.catalog.spokes.get? x with
      | some d => v.holdsWithin? n d.condition
      | none => some false
  | _ + 1, .atom a => some (v.answer (fun _ => false) a)
  | n + 1, .not c => (v.holdsWithin? n c).map (!·)
  | n + 1, .all cs => cs.allM (v.holdsWithin? n)
  | n + 1, .any cs => cs.anyM (v.holdsWithin? n)

/-- Whether a condition may hold, found by following spokes; none if that takes more calls inside
one another than given. -/
def Outlook.mayWithin? (v : View) (o : Outlook) : Nat → Condition → Option Bool
  | 0, _ => none
  | n + 1, c => do
    if ← v.holdsWithin? n c then return true
    match c with
    | .always | .not _ => return true
    | .atom (.spoke x) =>
      if o.spokes.contains x then return true
      match v.catalog.spokes.get? x with
      | some d => o.mayWithin? v n d.condition
      | none => return false
    | .atom a => return o.mayLater v (fun _ => false) a
    | .all cs => cs.allM (o.mayWithin? v n)
    | .any cs => cs.anyM (o.mayWithin? v n)

/-- The conditions of the spokes ask about no spoke. -/
def Catalog.SpokesApart (c : Catalog) : Prop :=
  ∀ d ∈ c.spokes.toList, ∀ x, ¬d.condition.Mentions (.spoke x)

/-- The height of the highest condition of a spoke. -/
def Catalog.spokeHeight (c : Catalog) : Nat :=
  Condition.heightOf (c.spokes.toList.map (·.condition))

namespace Catalog

variable {c : Catalog} {d : Spoke} {a : Atom}

theorem Accepted.spokesApart (h : c.Accepted) : c.SpokesApart :=
  h.closed.spokeless

theorem SpokesApart.spoke?_eq_none (h : c.SpokesApart) (hd : d ∈ c.spokes.toList)
    (ha : a ∈ d.condition.atoms) : a.spoke? = none := by
  cases a with
  | spoke x => exact absurd (Condition.mentions_of_mem_atoms _ ha) (h d hd x)
  | _ => rfl

theorem height_le_spokeHeight (hd : d ∈ c.spokes.toList) :
    d.condition.height ≤ c.spokeHeight :=
  Condition.height_le_heightOf (List.mem_map_of_mem hd)

end Catalog

/-! ### What holds -/

namespace View

variable {v : View} {a : Atom} {cond : Condition} {n : Nat}

theorem holdsWithin?_atom (ha : a.spoke? = none) (f : EntityId → Bool) (hn : 0 < n) :
    v.holdsWithin? n (.atom a) = some (v.answer f a) := by
  obtain ⟨n, rfl⟩ := Nat.exists_eq_add_one.2 hn
  cases a with
  | spoke x => cases ha
  | _ => rfl

/-- A condition whose atoms are answered within `k` calls is evaluated within its height more. -/
theorem holdsWithin?_eq_eval {f : Atom → Bool} {k : Nat}
    (hatoms : ∀ a ∈ cond.atoms, ∀ m, k < m → v.holdsWithin? m (.atom a) = some (f a))
    (hn : cond.height + k ≤ n) : v.holdsWithin? n cond = some (cond.eval f) := by
  induction n generalizing cond with
  | zero => exact absurd hn (by have := cond.height_pos; omega)
  | succ n ih =>
    -- A list of conditions is gone through one level further inside.
    have hlist : ∀ cs, (∀ a ∈ Condition.atomsOf cs, ∀ m, k < m →
        v.holdsWithin? m (.atom a) = some (f a)) → Condition.heightOf cs + k ≤ n →
          ∀ c ∈ cs, v.holdsWithin? n c = some (c.eval f) := by
      intro cs hcs hheight c hc
      have hle := Condition.height_le_heightOf hc
      exact ih (fun a ha => hcs a (Condition.mem_atomsOf hc ha)) (by omega)
    cases cond with
    | always => rfl
    | atom a => exact hatoms a (.head _) _ (by unfold Condition.height at hn; omega)
    | not c =>
      have hinner : v.holdsWithin? n c = some (c.eval f) :=
        ih hatoms (by unfold Condition.height at hn; omega)
      unfold holdsWithin?
      rw [hinner]
      rfl
    | all cs =>
      unfold holdsWithin? Condition.eval
      rw [Condition.evalAll_eq]
      exact allM_eq_some (hlist cs hatoms (by unfold Condition.height at hn; omega))
    | any cs =>
      unfold holdsWithin? Condition.eval
      rw [Condition.evalAny_eq]
      exact anyM_eq_some (hlist cs hatoms (by unfold Condition.height at hn; omega))

theorem holdsWithin?_spoke (h : v.catalog.SpokesApart) {x : EntityId}
    (hn : v.catalog.spokeHeight < n) :
    v.holdsWithin? n (.atom (.spoke x)) = some (v.spokeSatisfied x) := by
  obtain ⟨n, rfl⟩ := Nat.exists_eq_add_one.2 (Nat.zero_lt_of_lt hn)
  unfold holdsWithin? spokeSatisfied
  cases v.spokeRecorded x with
  | true => rfl
  | false =>
    cases hd : v.catalog.spokes.get? x with
    | none => rfl
    | some d =>
      have hmem := Table.mem_of_get? hd
      have hheight := Catalog.height_le_spokeHeight hmem
      exact holdsWithin?_eq_eval (k := 0)
        (fun _ ha _ hm => holdsWithin?_atom (h.spoke?_eq_none hmem ha) _ hm) (by omega)

theorem holdsWithin?_atom_eq (h : v.catalog.SpokesApart) (a : Atom)
    (hn : v.catalog.spokeHeight < n) :
    v.holdsWithin? n (.atom a) = some (v.holdsAtom a) := by
  cases ha : a.spoke? with
  | none => exact holdsWithin?_atom ha _ (Nat.zero_lt_of_lt hn)
  | some x =>
    obtain rfl := Atom.spoke?_eq_some_iff.1 ha
    exact holdsWithin?_spoke h hn

theorem holdsWithin?_eq_holds (h : v.catalog.SpokesApart)
    (hn : cond.height + v.catalog.spokeHeight ≤ n) :
    v.holdsWithin? n cond = some (v.holds cond) :=
  holdsWithin?_eq_eval (fun a _ _ hm => holdsWithin?_atom_eq h a hm) hn

/-- If the condition of a spoke opens with a question about that spoke, whatever opens with it is
never answered while the spoke is not recorded. -/
theorem holdsWithin?_eq_none {x : EntityId} {d : Spoke} (hx : v.spokeRecorded x = false)
    (hd : v.catalog.spokes.get? x = some d) (hself : d.condition.Opens x) (n : Nat)
    (h : cond.Opens x) : v.holdsWithin? n cond = none := by
  induction n generalizing cond with
  | zero => rfl
  | succ n ih =>
    cases h with
    | atom =>
      unfold holdsWithin?
      rw [hx, hd]
      exact ih hself
    | not h =>
      unfold holdsWithin?
      rw [ih h]
      rfl
    | all h =>
      unfold holdsWithin?
      rw [List.allM, ih h]
      rfl
    | any h =>
      unfold holdsWithin?
      rw [List.anyM, ih h]
      rfl

end View

/-! ### What may hold -/

namespace Outlook

variable {v : View} {o : Outlook} {a : Atom} {cond : Condition} {n : Nat}

theorem mayWithin?_of_holds (h : v.holdsWithin? n cond = some true) :
    o.mayWithin? v (n + 1) cond = some true := by
  unfold mayWithin?
  rw [h]
  rfl

theorem mayWithin?_atom (ha : a.spoke? = none) (f : EntityId → Bool) (hn : 1 < n) :
    o.mayWithin? v n (.atom a) = some (v.holdsAtom a || o.mayLater v f a) := by
  obtain ⟨n, rfl⟩ := Nat.exists_eq_add_one.2 (Nat.zero_lt_of_lt hn)
  have hholds : v.holdsWithin? n (.atom a) = some (v.holdsAtom a) :=
    View.holdsWithin?_atom ha _ (by omega)
  cases hnow : v.holdsAtom a with
  | true => exact mayWithin?_of_holds (hholds.trans (congrArg some hnow))
  | false =>
    unfold mayWithin?
    rw [hholds, hnow]
    cases a with
    | spoke x => cases ha
    | _ => rfl

theorem mayWithin?_eq_possible {f g : Atom → Bool} {k : Nat}
    (hnow : ∀ a ∈ cond.atoms, ∀ m, k < m → v.holdsWithin? m (.atom a) = some (f a))
    (hmay : ∀ a ∈ cond.atoms, ∀ m, k + 1 < m → o.mayWithin? v m (.atom a) = some (g a))
    (hfg : ∀ a ∈ cond.atoms, f a = true → g a = true) (hn : cond.height + k < n) :
    o.mayWithin? v n cond = some (cond.possible g) := by
  induction n generalizing cond with
  | zero => cases hn
  | succ n ih =>
    have hholds := View.holdsWithin?_eq_eval hnow (Nat.le_of_lt_succ hn)
    cases heval : cond.eval f with
    | true =>
      rw [Condition.possible_of_eval cond hfg heval]
      exact mayWithin?_of_holds (hholds.trans (congrArg some heval))
    | false =>
      have hlist : ∀ cs, Condition.atomsOf cs = cond.atoms → Condition.heightOf cs + k < n →
          ∀ c ∈ cs, o.mayWithin? v n c = some (c.possible g) := by
        intro cs hcs hheight c hc
        have hle := Condition.height_le_heightOf hc
        have hatoms : ∀ a ∈ c.atoms, a ∈ cond.atoms :=
          fun a ha => hcs ▸ Condition.mem_atomsOf hc ha
        exact ih (fun a ha => hnow a (hatoms a ha)) (fun a ha => hmay a (hatoms a ha))
          (fun a ha => hfg a (hatoms a ha)) (by omega)
      cases cond with
      | atom a => exact hmay a (.head _) _ (by unfold Condition.height at hn; omega)
      | always | not c =>
        unfold mayWithin?
        rw [hholds, heval]
        rfl
      | all cs =>
        unfold mayWithin? Condition.possible
        rw [hholds, heval, Condition.possibleAll_eq]
        exact allM_eq_some (hlist cs rfl (by unfold Condition.height at hn; omega))
      | any cs =>
        unfold mayWithin? Condition.possible
        rw [hholds, heval, Condition.possibleAny_eq]
        exact anyM_eq_some (hlist cs rfl (by unfold Condition.height at hn; omega))

theorem mayWithin?_spoke (h : v.catalog.SpokesApart) {x : EntityId}
    (hn : v.catalog.spokeHeight + 1 < n) :
    o.mayWithin? v n (.atom (.spoke x)) = some (o.mayAtom v (.spoke x)) := by
  obtain ⟨n, rfl⟩ := Nat.exists_eq_add_one.2 (Nat.zero_lt_of_lt hn)
  have hholds := View.holdsWithin?_spoke h (x := x) (Nat.lt_of_succ_lt_succ hn)
  unfold mayAtom View.holdsAtom View.answer
  dsimp only
  cases hnow : v.spokeSatisfied x with
  | true => exact mayWithin?_of_holds (hholds.trans (congrArg some hnow))
  | false =>
    unfold mayWithin? mayLater
    rw [hholds, hnow]
    dsimp only
    cases hknown : o.spokes.contains x with
    | true => rfl
    | false =>
      cases hd : v.catalog.spokes.get? x with
      | none => rfl
      | some d =>
        have hmem := Table.mem_of_get? hd
        have hheight := Catalog.height_le_spokeHeight hmem
        exact mayWithin?_eq_possible (f := v.holdsAtom) (g := o.mayInSpoke v) (k := 0)
          (fun _ ha _ hm => View.holdsWithin?_atom (h.spoke?_eq_none hmem ha) _ hm)
          (fun _ ha _ hm => mayWithin?_atom (h.spoke?_eq_none hmem ha) _ hm)
          (fun _ _ hholds => Bool.or_eq_true_iff.2 (.inl hholds)) (by omega)

theorem mayWithin?_atom_eq (h : v.catalog.SpokesApart) (a : Atom)
    (hn : v.catalog.spokeHeight + 1 < n) :
    o.mayWithin? v n (.atom a) = some (o.mayAtom v a) := by
  cases ha : a.spoke? with
  | none => exact mayWithin?_atom ha _ (by omega)
  | some x =>
    obtain rfl := Atom.spoke?_eq_some_iff.1 ha
    exact mayWithin?_spoke h hn

theorem mayWithin?_eq_may (h : v.catalog.SpokesApart)
    (hn : cond.height + v.catalog.spokeHeight < n) :
    o.mayWithin? v n cond = some (o.may v cond) :=
  mayWithin?_eq_possible (fun a _ _ hm => View.holdsWithin?_atom_eq h a hm)
    (fun a _ _ hm => mayWithin?_atom_eq h a hm)
    (fun _ _ hholds => Bool.or_eq_true_iff.2 (.inl hholds)) hn

end Outlook

/-- In a world that loads, the conditions of the spokes ask about no spoke at any depth, and so every
condition is evaluated in every state and in every outlook, with calls no deeper inside one another
than the condition and the highest condition of a spoke are high. -/
theorem evaluation_ends {c : Catalog} (hc : c.Accepted) (s : State) (o : Outlook)
    (cond : Condition) :
    c.SpokesApart ∧ ∀ n, cond.height + c.spokeHeight < n →
      (View.mk c s).holdsWithin? n cond = some ((View.mk c s).holds cond) ∧
      o.mayWithin? ⟨c, s⟩ n cond = some (o.may ⟨c, s⟩ cond) := by
  refine ⟨hc.spokesApart, fun n hn => ?_⟩
  exact ⟨View.holdsWithin?_eq_holds hc.spokesApart (Nat.le_of_lt hn),
    Outlook.mayWithin?_eq_may hc.spokesApart hn⟩

/-- Eight calls inside one another are enough to find that the farmer watches the player, who has
not helped, and that he may go on. -/
theorem watchful_within_eight :
    orchard.Accepted ∧ watchful.height + orchard.spokeHeight = 7 ∧
      (View.mk orchard whistled).holdsWithin? 8 watchful = some true ∧
      (Outlook.explore ⟨orchard, whistled⟩).mayWithin? ⟨orchard, whistled⟩ 8 watchful =
        some true := by
  have hheight : watchful.height + orchard.spokeHeight = 7 := by decide
  obtain ⟨-, hends⟩ := evaluation_ends orchard_accepted whistled
    (.explore ⟨orchard, whistled⟩) watchful
  obtain ⟨hholds, hmay⟩ := hends 8 (by omega)
  have hnow : (View.mk orchard whistled).holds watchful = true := by decide +kernel
  have hlater : (Outlook.explore ⟨orchard, whistled⟩).may ⟨orchard, whistled⟩ watchful = true := by
    decide +kernel
  exact ⟨orchard_accepted, hheight, hholds.trans (congrArg some hnow),
    hmay.trans (congrArg some hlater)⟩

/-- A cave whose spoke holds unless it holds. -/
def caveDoc : WorldDocument where
  world := some { title := "Cave" }
  start := some { location := "cave" }
  locations := [{ id := "cave", name := "Cave" }]
  spokes := [
    { id := "echo", act := "day",
      condition := .not (.all [.any [.atom (.spoke "echo"), .always]]) }]
  acts := [{ id := "day", locations := ["cave"] }]

/-- The cave is refused for that and nothing else, and asking about the spoke would not end. -/
theorem echo_never_ends :
    Catalog.ofDocument caveDoc = .error [.nestedSpoke "echo"] ∧
      ∀ n, (View.mk (.draft caveDoc) (.initial (.draft caveDoc))).holdsWithin? n
        (.atom (.spoke "echo")) = none := by
  have hproblems : Catalog.problems caveDoc = [.nestedSpoke "echo"] := by decide
  constructor
  · unfold Catalog.ofDocument
    rw [hproblems]
  · exact fun n =>
      View.holdsWithin?_eq_none rfl rfl (.not (.all (.any .atom))) n .atom

end Storyworld
