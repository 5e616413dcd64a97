import Storyworld.Outlook

/-!
# Learning

An outlook is a set of facts about what may come about: `knows` asks for one and `learn` takes one
in. Every stage of a round takes in facts that the catalog can tell (`learnable`), one after another
(`Learns`). Whatever is taken in anew makes the outlook larger and leaves one fact fewer to learn,
so that exploring stops at an outlook from which no stage learns more (`explore_closed`).
-/

namespace Storyworld

/-- One thing that may come about. -/
inductive Fact
  /-- The act at the position is reached. -/
  | act (position : Nat)
  /-- The location comes within bounds. -/
  | bound (location : EntityId)
  | visit (location : EntityId)
  | truthy (flag : String)
  | value (flag : String) (value : FlagValue)
  | gain (item : EntityId)
  | place (item location : EntityId)
  | move (character location : EntityId)
  | unlock (exit : EntityId)
  | reveal (exit : EntityId)
  | raise (character : EntityId) (counter : String)
  | lower (character : EntityId) (counter : String)
  | count (character : EntityId) (counter : String) (value : Count)
  | spoke (spoke : EntityId)
  | beat (beat : EntityId)
  | ran (interaction : EntityId)
  deriving DecidableEq

namespace Outlook

def knows (o : Outlook) : Fact → Bool
  | .act i => i ≤ o.furthestAct
  | .bound l => o.bounds.contains l
  | .visit l => o.visitable.contains l
  | .truthy f => o.truthyFlags.contains f
  | .value f x => o.flagValues.contains (f, x)
  | .gain i => o.obtainable.contains i
  | .place i l => o.placements.contains (i, l)
  | .move p l => o.moves.contains (p, l)
  | .unlock x => o.opened.contains x
  | .reveal x => o.shown.contains x
  | .raise p n => o.raised.contains (p, n)
  | .lower p n => o.lowered.contains (p, n)
  | .count p n x => o.counterValues.contains (p, n, x)
  | .spoke d => o.spokes.contains d
  | .beat b => o.beats.contains b
  | .ran d => o.interactions.contains d

def learn (o : Outlook) : Fact → Outlook
  | .act i => { o with furthestAct := max o.furthestAct i }
  | .bound l => { o with bounds := o.bounds.insert l }
  | .visit l => { o with visitable := o.visitable.insert l }
  | .truthy f => { o with truthyFlags := o.truthyFlags.insert f }
  | .value f x => { o with flagValues := o.flagValues.insert (f, x) }
  | .gain i => { o with obtainable := o.obtainable.insert i }
  | .place i l => { o with placements := o.placements.insert (i, l) }
  | .move p l => { o with moves := o.moves.insert (p, l) }
  | .unlock x => { o with opened := o.opened.insert x }
  | .reveal x => { o with shown := o.shown.insert x }
  | .raise p n => { o with raised := o.raised.insert (p, n) }
  | .lower p n => { o with lowered := o.lowered.insert (p, n) }
  | .count p n x => { o with counterValues := o.counterValues.insert (p, n, x) }
  | .spoke d => { o with spokes := o.spokes.insert d }
  | .beat b => { o with beats := o.beats.insert b }
  | .ran d => { o with interactions := o.interactions.insert d }

def learnAll (o : Outlook) (fs : List Fact) : Outlook := fs.foldl learn o

variable {o o' : Outlook} {f g : Fact}

theorem knows_learn_self (o : Outlook) (f : Fact) : (o.learn f).knows f = true := by
  cases f with
  | act i => exact decide_eq_true (Nat.le_max_right _ _)
  | _ => simp [knows, learn]

theorem knows_learn (h : o.knows g = true) : (o.learn f).knows g = true := by
  cases f with
  | act i =>
    cases g with
    | act j =>
      exact decide_eq_true (Nat.le_trans (of_decide_eq_true h) (Nat.le_max_left _ _))
    | _ => exact h
  | _ =>
    cases g <;> first
      | exact h
      | (simp only [knows, learn, List.contains_iff_mem, List.mem_insert_iff] at h ⊢; exact .inr h)

theorem learn_of_knows (h : o.knows f = true) : o.learn f = o := by
  cases f with
  | act i =>
    have h : i ≤ o.furthestAct := of_decide_eq_true h
    simp only [learn, Nat.max_eq_left h]
  | _ =>
    simp only [knows, List.contains_iff_mem] at h
    simp only [learn, List.insert_of_mem h]

theorem size_lt_learn (h : o.knows f = false) : o.size < (o.learn f).size := by
  cases f with
  | act i =>
    have h : o.furthestAct < i := by simpa [knows] using h
    simp only [size, learn, Nat.max_eq_right (Nat.le_of_lt h)]
    omega
  | _ =>
    have h := Bool.eq_false_iff.1 h
    simp only [knows, ne_eq, List.contains_iff_mem] at h
    simp only [size, learn, List.length_insert_of_not_mem h]
    omega

end Outlook

/-! ### What can be learned -/

namespace View

variable (v : View)

/-- What an effect may bring about, given where things are. -/
def facts : Effect → List Fact
  | .setFlag flag x => .value flag x :: if x.isTruthy then [.truthy flag] else []
  | .giveItem item => if v.placement item = .destroyed then [] else [.gain item]
  | .placeItem item location => [.place item location]
  | .movePlayer location => [.visit location]
  | .moveCharacter character location => [.move character location]
  | .adjustCounter character name change =>
    if 0 < change then [.raise character name]
    else if change < 0 then [.lower character name] else []
  | .setCounter character name x => [.count character name x]
  | .lockExit exit false => [.unlock exit]
  | .hideExit exit false => [.reveal exit]
  | .completeSpoke spoke => [.spoke spoke]
  | .advanceAct act => (v.catalog.acts.position? act).toList.map .act
  | .clearFlag _ | .removeItem _ | .destroyItem _ | .handItem _ _ | .lockExit _ true
  | .hideExit _ true | .describe _ _ => []

def authored : List Effect :=
  v.catalog.interactions.toList.flatMap (·.effects) ++ v.catalog.beats.toList.flatMap (·.effects)

/-- All that can be learned. -/
def learnable : List Fact :=
  v.catalog.exits.toList.map (.visit ·.destination) ++
  v.catalog.items.toList.map (.gain ·.id) ++
  v.authored.flatMap v.facts ++
  v.catalog.interactions.toList.map (.ran ·.id) ++
  v.catalog.beats.toList.map (.beat ·.id) ++
  (List.range v.catalog.acts.size).map (fun i => .act (i + 1)) ++
  (v.catalog.acts.toList.flatMap (·.locations)).map .bound

theorem length_facts_le (e : Effect) : (v.facts e).length ≤ 2 := by
  unfold facts
  split
  · split <;> simp
  · split <;> simp
  · simp
  · simp
  · simp
  · split
    · simp
    · split <;> simp
  · simp
  · simp
  · simp
  · simp
  · rename_i act
    cases v.catalog.acts.position? act <;> simp
  all_goals simp

theorem length_flatMap_facts_le (es : List Effect) :
    (es.flatMap v.facts).length ≤ 2 * es.length := by
  induction es with
  | nil => simp
  | cons e es ih =>
    have := v.length_facts_le e
    simp only [List.flatMap_cons, List.length_append, List.length_cons]
    omega

theorem length_learnable_le : v.learnable.length ≤ v.catalog.knowable := by
  have := v.length_flatMap_facts_le v.authored
  unfold learnable Catalog.knowable Table.size
  unfold authored at this ⊢
  simp only [List.length_append, List.length_map, List.length_range] at this ⊢
  omega

variable {v}

theorem mem_learnable_exit {d : Exit} (h : d ∈ v.catalog.exits.toList) :
    .visit d.destination ∈ v.learnable := by
  simp only [learnable, List.mem_append, List.mem_map]
  exact .inl (.inl (.inl (.inl (.inl (.inl ⟨d, h, rfl⟩)))))

theorem mem_learnable_item {d : Item} (h : d ∈ v.catalog.items.toList) :
    .gain d.id ∈ v.learnable := by
  simp only [learnable, List.mem_append, List.mem_map]
  exact .inl (.inl (.inl (.inl (.inl (.inr ⟨d, h, rfl⟩)))))

theorem mem_learnable_effect {e : Effect} (h : e ∈ v.authored) {f : Fact} (hf : f ∈ v.facts e) :
    f ∈ v.learnable := by
  simp only [learnable, List.mem_append, List.mem_flatMap]
  exact .inl (.inl (.inl (.inl (.inr ⟨e, h, hf⟩))))

theorem mem_learnable_interaction {d : Interaction} (h : d ∈ v.catalog.interactions.toList) :
    .ran d.id ∈ v.learnable := by
  simp only [learnable, List.mem_append, List.mem_map]
  exact .inl (.inl (.inl (.inr ⟨d, h, rfl⟩)))

theorem mem_learnable_beat {b : Beat} (h : b ∈ v.catalog.beats.toList) :
    .beat b.id ∈ v.learnable := by
  simp only [learnable, List.mem_append, List.mem_map]
  exact .inl (.inl (.inr ⟨b, h, rfl⟩))

theorem mem_learnable_act {i : Nat} (h : i < v.catalog.acts.size) :
    .act (i + 1) ∈ v.learnable := by
  simp only [learnable, List.mem_append, List.mem_map, List.mem_range]
  exact .inl (.inr ⟨i, h, rfl⟩)

theorem mem_learnable_bound {a : Act} (h : a ∈ v.catalog.acts.toList) {l : EntityId}
    (hl : l ∈ a.locations) : .bound l ∈ v.learnable := by
  simp only [learnable, List.mem_append, List.mem_map, List.mem_flatMap]
  exact .inr ⟨l, ⟨a, h, hl⟩, rfl⟩

end View

/-! ### Learning step by step -/

/-- An outlook comes of another by taking in facts that can be learned. -/
inductive Learns (v : View) (o : Outlook) : Outlook → Prop
  | refl : Learns v o o
  | learn {o' : Outlook} (h : Learns v o o') {f : Fact} (hf : f ∈ v.learnable) :
      Learns v o (o'.learn f)

namespace Learns

variable {v : View} {o o' o'' : Outlook} {f : Fact}

theorem trans (h : Learns v o o') (h' : Learns v o' o'') : Learns v o o'' := by
  induction h' with
  | refl => exact h
  | learn _ hf ih => exact ih.learn hf

theorem learnAll (o : Outlook) {fs : List Fact} (h : ∀ f ∈ fs, f ∈ v.learnable) :
    Learns v o (o.learnAll fs) := by
  induction fs generalizing o with
  | nil => exact .refl
  | cons f fs ih =>
    exact trans (.learn .refl (h f (.head _))) (ih _ fun g hg => h g (.tail _ hg))

theorem knows (h : Learns v o o') (hf : o.knows f = true) : o'.knows f = true := by
  induction h with
  | refl => exact hf
  | learn _ _ ih => exact Outlook.knows_learn ih

theorem furthestAct_le (h : Learns v o o') : o.furthestAct ≤ o'.furthestAct :=
  of_decide_eq_true (h.knows (f := .act o.furthestAct) (decide_eq_true (Nat.le_refl _)))

/-- The number of facts that are still to be learned. -/
def unknown (v : View) (o : Outlook) : Nat := v.learnable.countP fun f => !o.knows f

theorem countP_lt_of_mem {p q : Fact → Bool} {l : List Fact} (hpq : ∀ x, p x = true → q x = true)
    (hf : f ∈ l) (hq : q f = true) (hp : p f = false) : l.countP p < l.countP q := by
  induction l with
  | nil => cases hf
  | cons x l ih =>
    have hle := List.countP_mono_left (l := l) fun y _ => hpq y
    rw [List.countP_cons, List.countP_cons]
    rcases List.mem_cons.1 hf with rfl | hf
    · rw [if_pos hq, hp]
      simp only [Bool.false_eq_true, if_false]
      omega
    · have := ih hf
      cases hx : p x with
      | true => rw [hpq x hx]; simpa
      | false => simp only [Bool.false_eq_true, if_false]; omega

theorem unknown_learn_lt (hf : f ∈ v.learnable) (h : o.knows f = false) :
    unknown v (o.learn f) < unknown v o := by
  refine countP_lt_of_mem (fun g hg => ?_) hf (by simpa using h)
    (by simp [Outlook.knows_learn_self])
  cases hk : o.knows g with
  | true => rw [Outlook.knows_learn hk] at hg; exact hg
  | false => rfl

/-- Either nothing was learned, or the outlook is larger and less is left to learn. -/
theorem eq_or_lt (h : Learns v o o') :
    o' = o ∨ (o.size < o'.size ∧ unknown v o' < unknown v o) := by
  induction h with
  | refl => exact .inl rfl
  | @learn o₁ _ f hf ih =>
    cases hk : o₁.knows f with
    | true => rwa [Outlook.learn_of_knows hk]
    | false =>
      have hsize := Outlook.size_lt_learn hk
      have hunknown := unknown_learn_lt hf hk
      rcases ih with rfl | ⟨hs, hu⟩
      · exact .inr ⟨hsize, hunknown⟩
      · exact .inr ⟨by omega, by omega⟩

theorem eq_of_size_eq (h : Learns v o o') (hsize : o'.size = o.size) : o' = o := by
  rcases h.eq_or_lt with heq | ⟨hlt, -⟩
  · exact heq
  · omega

theorem antisymm (h : Learns v o o') (h' : Learns v o' o) : o' = o := by
  rcases h.eq_or_lt with heq | ⟨hlt, -⟩
  · exact heq
  · rcases h'.eq_or_lt with heq | ⟨hlt', -⟩
    · exact heq.symm
    · omega

end Learns

/-! ### Stages -/

namespace Outlook

variable {v : View} {o : Outlook}

theorem learnAll_visit (o : Outlook) (ls : List EntityId) :
    { o with visitable := addAll o.visitable ls } = o.learnAll (ls.map .visit) := by
  induction ls generalizing o with
  | nil => rfl
  | cons l ls ih => exact ih (o.learn (.visit l))

theorem learnAll_gain (o : Outlook) (is : List EntityId) :
    { o with obtainable := addAll o.obtainable is } = o.learnAll (is.map .gain) := by
  induction is generalizing o with
  | nil => rfl
  | cons i is ih => exact ih (o.learn (.gain i))

theorem learnAll_bound (o : Outlook) (ls : List EntityId) :
    { o with bounds := addAll o.bounds ls } = o.learnAll (ls.map .bound) := by
  induction ls generalizing o with
  | nil => rfl
  | cons l ls ih => exact ih (o.learn (.bound l))

theorem learnAll_ran (o : Outlook) (ds : List EntityId) :
    { o with interactions := addAll o.interactions ds } = o.learnAll (ds.map .ran) := by
  induction ds generalizing o with
  | nil => rfl
  | cons d ds ih => exact ih (o.learn (.ran d))

theorem learnAll_beat (o : Outlook) (bs : List EntityId) :
    { o with beats := addAll o.beats bs } = o.learnAll (bs.map .beat) := by
  induction bs generalizing o with
  | nil => rfl
  | cons b bs ih => exact ih (o.learn (.beat b))

theorem knows_learnAll_of_knows {fs : List Fact} {f : Fact} (h : o.knows f = true) :
    (o.learnAll fs).knows f = true := by
  induction fs generalizing o with
  | nil => exact h
  | cons g fs ih => exact ih (knows_learn h)

theorem knows_learnAll {fs : List Fact} {f : Fact} (h : f ∈ fs) :
    (o.learnAll fs).knows f = true := by
  induction fs generalizing o with
  | nil => cases h
  | cons g fs ih =>
    rcases List.mem_cons.1 h with rfl | h
    · exact knows_learnAll_of_knows (o := o.learn f) (knows_learn_self o f)
    · exact ih h

/-- But for acts, taking in an effect is learning its facts. -/
theorem absorb_eq_learnAll {e : Effect} (he : ∀ a, e ≠ .advanceAct a) :
    o.absorb v e = o.learnAll (v.facts e) := by
  cases e with
  | setFlag flag x =>
    simp only [absorb, View.facts]
    split <;> rfl
  | giveItem item =>
    simp only [absorb, View.facts]
    split <;> rfl
  | adjustCounter p n d =>
    simp only [absorb, View.facts]
    split
    · rfl
    · split <;> rfl
  | lockExit x b | hideExit x b => cases b <;> rfl
  | advanceAct a => exact absurd rfl (he a)
  | _ => rfl

theorem absorb_frame {e : Effect} (he : ∀ a, e ≠ .advanceAct a) :
    (o.absorb v e).furthestAct = o.furthestAct ∧ (o.absorb v e).interactions = o.interactions ∧
      (o.absorb v e).beats = o.beats := by
  cases e with
  | giveItem item =>
    simp only [absorb]
    split <;> exact ⟨rfl, rfl, rfl⟩
  | adjustCounter p n d =>
    simp only [absorb]
    split
    · exact ⟨rfl, rfl, rfl⟩
    · split <;> exact ⟨rfl, rfl, rfl⟩
  | lockExit x b | hideExit x b => cases b <;> exact ⟨rfl, rfl, rfl⟩
  | advanceAct a => exact absurd rfl (he a)
  | _ => exact ⟨rfl, rfl, rfl⟩

theorem absorb_advanceAct {a : EntityId} {i : Nat} (hi : v.catalog.acts.position? a = some i) :
    o.absorb v (.advanceAct a) = o.openActs v (i - o.furthestAct) := by
  unfold absorb
  dsimp only
  rw [hi]
  rfl

theorem absorb_advanceAct_of_none {a : EntityId} (hi : v.catalog.acts.position? a = none) :
    o.absorb v (.advanceAct a) = o := by
  unfold absorb
  dsimp only
  rw [hi]

/-- Opening one more act is learning its position and its locations. -/
theorem openActs_succ (o : Outlook) (n : Nat) :
    o.openActs v (n + 1) =
      match v.catalog.acts.toList[o.furthestAct + 1]? with
      | none => o.learn (.act (o.furthestAct + 1))
      | some a =>
        ((o.learn (.act (o.furthestAct + 1))).learnAll (a.locations.map .bound)).openActs v n := by
  have hact :
      { o with furthestAct := o.furthestAct + 1 } = o.learn (.act (o.furthestAct + 1)) := by
    simp only [learn, Nat.max_eq_right (Nat.le_succ _)]
  rw [← hact]
  cases ha : v.catalog.acts.toList[o.furthestAct + 1]? with
  | none =>
    unfold openActs
    dsimp only
    rw [ha]
  | some a =>
    dsimp only
    rw [← learnAll_bound]
    conv => lhs; unfold openActs
    dsimp only
    rw [ha]

/-- The outlook foresees what the effect may bring about. -/
def Foresees (v : View) (o : Outlook) (e : Effect) : Prop := ∀ f ∈ v.facts e, o.knows f = true

theorem Foresees.mono {o' : Outlook} {e : Effect} (h : o.Foresees v e) (ho : Learns v o o') :
    o'.Foresees v e := fun f hf => ho.knows (h f hf)

/-- Learning that takes in no interaction and no beat; the locations of the acts that it opens come
within bounds. -/
structure Unfolds (v : View) (o o' : Outlook) : Prop where
  learns : Learns v o o'
  opened : ∀ j a, v.catalog.acts.toList[j]? = some a → o.furthestAct < j → j ≤ o'.furthestAct →
    ∀ l ∈ a.locations, o'.knows (.bound l) = true
  interactions : o'.interactions = o.interactions
  beats : o'.beats = o.beats

namespace Unfolds

variable {o' o'' : Outlook}

theorem refl : Unfolds v o o := ⟨.refl, fun j a _ h1 h2 => by omega, rfl, rfl⟩

theorem trans (h : Unfolds v o o') (h' : Unfolds v o' o'') : Unfolds v o o'' where
  learns := h.learns.trans h'.learns
  opened j a ha h1 h2 l hl := by
    by_cases hj : j ≤ o'.furthestAct
    · exact h'.learns.knows (h.opened j a ha h1 hj l hl)
    · exact h'.opened j a ha (by omega) h2 l hl
  interactions := h'.interactions.trans h.interactions
  beats := h'.beats.trans h.beats

theorem openActs {n : Nat} (h : n = 0 ∨ o.furthestAct + n ≤ v.catalog.acts.size) :
    Unfolds v o (o.openActs v n) ∧ (o.openActs v n).furthestAct = o.furthestAct + n := by
  induction n generalizing o with
  | zero => exact ⟨.refl, rfl⟩
  | succ n ih =>
    have hlt : o.furthestAct < v.catalog.acts.size := by omega
    have hnext : (o.learn (.act (o.furthestAct + 1))).furthestAct = o.furthestAct + 1 :=
      Nat.max_eq_right (Nat.le_succ _)
    have hlearns : Learns v o (o.learn (.act (o.furthestAct + 1))) :=
      .learn .refl (View.mem_learnable_act hlt)
    rw [openActs_succ]
    cases ha : v.catalog.acts.toList[o.furthestAct + 1]? with
    | none =>
      -- The last act was reached, so this was the last one to open.
      have hsize : v.catalog.acts.size ≤ o.furthestAct + 1 := List.getElem?_eq_none_iff.1 ha
      obtain rfl : n = 0 := by omega
      refine ⟨⟨hlearns, fun j a hj h1 h2 => ?_, rfl, rfl⟩, hnext⟩
      obtain rfl : j = o.furthestAct + 1 := by
        have h2 := Nat.le_trans h2 (Nat.le_of_eq hnext)
        omega
      rw [ha] at hj
      cases hj
    | some a =>
      have hbounds := learnAll_bound (o.learn (.act (o.furthestAct + 1))) a.locations
      have hfirst : Unfolds v o
          ((o.learn (.act (o.furthestAct + 1))).learnAll (a.locations.map .bound)) := by
        refine ⟨hlearns.trans (.learnAll _ fun f hf => ?_), fun j b hj h1 h2 l hl => ?_, ?_, ?_⟩
        · obtain ⟨l, hl, rfl⟩ := List.mem_map.1 hf
          exact View.mem_learnable_bound (List.mem_of_getElem? ha) hl
        · rw [← hbounds] at h2
          obtain rfl : j = o.furthestAct + 1 := by
            have h2 := Nat.le_trans h2 (Nat.le_of_eq hnext)
            omega
          obtain rfl : a = b := Option.some.inj (ha.symm.trans hj)
          exact knows_learnAll (List.mem_map.2 ⟨l, hl, rfl⟩)
        · rw [← hbounds]
          rfl
        · rw [← hbounds]
          rfl
      have hfurthest : ((o.learn (.act (o.furthestAct + 1))).learnAll
          (a.locations.map .bound)).furthestAct = o.furthestAct + 1 := by
        rw [← hbounds]
        exact hnext
      obtain ⟨hrest, hlast⟩ := ih (by rw [hfurthest]; omega)
      refine ⟨hfirst.trans hrest, hlast.trans ?_⟩
      rw [hfurthest]
      omega

/-- Going forward to an act reaches it, unless one further on is reached. -/
theorem furthest_absorb_advanceAct {a : EntityId} {i : Nat}
    (hi : v.catalog.acts.position? a = some i) :
    (o.absorb v (.advanceAct a)).furthestAct = max o.furthestAct i := by
  have hlt := Table.lt_size_of_position? hi
  rw [absorb_advanceAct hi, (openActs (v := v) (o := o) (n := i - o.furthestAct) (by omega)).2]
  omega

end Unfolds

theorem knows_absorb {e : Effect} {f : Fact} (h : o.knows f = true) :
    (o.absorb v e).knows f = true := by
  obtain ⟨a, rfl⟩ | hact := e.eq_advanceAct_or_ne
  · cases hi : v.catalog.acts.position? a with
    | none => rwa [absorb_advanceAct_of_none hi]
    | some i =>
      have hlt := Table.lt_size_of_position? hi
      rw [absorb_advanceAct hi]
      exact (Unfolds.openActs (by omega)).1.learns.knows h
  · rw [absorb_eq_learnAll hact]
    exact knows_learnAll_of_knows h

theorem foresees_absorb (v : View) (o : Outlook) (e : Effect) : (o.absorb v e).Foresees v e := by
  intro f hf
  obtain ⟨a, rfl⟩ | hact := e.eq_advanceAct_or_ne
  · obtain ⟨i, hi, rfl⟩ : ∃ i, v.catalog.acts.position? a = some i ∧ .act i = f := by
      simpa [View.facts] using hf
    refine decide_eq_true ?_
    rw [Unfolds.furthest_absorb_advanceAct hi]
    exact Nat.le_max_right _ _
  · rw [absorb_eq_learnAll hact]
    exact knows_learnAll hf

namespace Unfolds

/-- Taking in an authored effect does no more than learn, and makes it foreseen. -/
theorem absorb (o : Outlook) {e : Effect} (he : e ∈ v.authored) :
    Unfolds v o (o.absorb v e) ∧ (o.absorb v e).Foresees v e := by
  refine ⟨?_, foresees_absorb v o e⟩
  obtain ⟨a, rfl⟩ | hact := e.eq_advanceAct_or_ne
  · cases hi : v.catalog.acts.position? a with
    | none =>
      rw [absorb_advanceAct_of_none hi]
      exact refl
    | some i =>
      have hlt := Table.lt_size_of_position? hi
      rw [absorb_advanceAct hi]
      exact (openActs (by omega)).1
  · obtain ⟨hfurthest, hinteractions, hbeats⟩ := absorb_frame (v := v) (o := o) hact
    refine ⟨?_, fun j a _ h1 h2 => by omega, hinteractions, hbeats⟩
    rw [absorb_eq_learnAll hact]
    exact .learnAll o fun f => View.mem_learnable_effect he

theorem furthest_absorb_lt (he : o.furthestAct < v.catalog.acts.size) (e : Effect) :
    (o.absorb v e).furthestAct < v.catalog.acts.size := by
  obtain ⟨a, rfl⟩ | hact := e.eq_advanceAct_or_ne
  · cases hi : v.catalog.acts.position? a with
    | none => rwa [absorb_advanceAct_of_none hi]
    | some i =>
      have hlt := Table.lt_size_of_position? hi
      rw [furthest_absorb_advanceAct hi]
      omega
  · rw [(absorb_frame hact).1]
    exact he

theorem furthest_absorbAll_lt (he : o.furthestAct < v.catalog.acts.size) (es : List Effect) :
    (o.absorbAll v es).furthestAct < v.catalog.acts.size := by
  induction es generalizing o with
  | nil => exact he
  | cons e es ih => exact ih (furthest_absorb_lt he e)

theorem absorbAll (o : Outlook) {es : List Effect} (hes : ∀ e ∈ es, e ∈ v.authored) :
    Unfolds v o (o.absorbAll v es) ∧ ∀ e ∈ es, (o.absorbAll v es).Foresees v e := by
  induction es generalizing o with
  | nil => exact ⟨.refl, fun e he => nomatch he⟩
  | cons e es ih =>
    obtain ⟨hfirst, he⟩ := absorb o (hes e (.head _))
    obtain ⟨hrest, hes'⟩ := ih (o.absorb v e) fun e he => hes e (.tail _ he)
    refine ⟨hfirst.trans hrest, fun e' he' => ?_⟩
    rcases List.mem_cons.1 he' with rfl | he'
    · exact he.mono hrest.learns
    · exact hes' e' he'

end Unfolds
end Outlook
end Storyworld
