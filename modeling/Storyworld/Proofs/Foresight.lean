import Storyworld.Proofs.Learning

/-!
# Foresight

Exploring ends with an outlook that no stage of a round changes (`Closed`), and in which what was
taken in is foreseen: the locations of the acts that were opened are within bounds, and the effects
of the interactions and beats that were run are foreseen (`Sound`). The lemmas after that read off
what is foreseen in the end (`explore_closed`, `explore_sound`): ways that may be passed, items that
may be picked up, interactions and beats that may run.
-/

namespace Storyworld
namespace Outlook

variable {v : View} {o o' : Outlook}

theorem mem_authored_interaction {d : Interaction} (hd : d ∈ v.catalog.interactions.toList)
    {e : Effect} (he : e ∈ d.effects) : e ∈ v.authored :=
  List.mem_append_left _ (List.mem_flatMap.2 ⟨d, hd, he⟩)

theorem mem_authored_beat {b : Beat} (hb : b ∈ v.catalog.beats.toList) {e : Effect}
    (he : e ∈ b.effects) : e ∈ v.authored :=
  List.mem_append_right _ (List.mem_flatMap.2 ⟨b, hb, he⟩)

/-- What was taken in is foreseen, but for the interactions and beats that ran before. -/
structure Sound (v : View) (o : Outlook) : Prop where
  opened : ∀ j a, v.catalog.acts.toList[j]? = some a → (initial v).furthestAct < j →
    j ≤ o.furthestAct → ∀ l ∈ a.locations, o.knows (.bound l) = true
  ran : ∀ d ∈ v.catalog.interactions.toList, o.knows (.ran d.id) = true →
    d.id ∉ v.state.usedInteractions → ∀ e ∈ d.effects, o.Foresees v e
  fired : ∀ b ∈ v.catalog.beats.toList, o.knows (.beat b.id) = true →
    b.id ∉ v.state.firedBeats → ∀ e ∈ b.effects, o.Foresees v e

theorem mem_addAll {α : Type} [BEq α] [LawfulBEq α] {l new : List α} {a : α} :
    a ∈ addAll l new ↔ a ∈ l ∨ a ∈ new := by
  induction new generalizing l with
  | nil => simp [addAll]
  | cons b new ih =>
    show a ∈ addAll (l.insert b) new ↔ _
    rw [ih, List.mem_insert_iff, List.mem_cons, or_comm (a := a = b), or_assoc]

theorem Sound.initial : Sound v (initial v) where
  opened j a _ h1 h2 := by omega
  ran d _ h hd := by
    refine absurd ?_ hd
    have h : d.id ∈ v.state.usedInteractions.toList := by
      simpa [knows, Outlook.initial] using h
    exact SortedSet.mem_toList.1 h
  fired b _ h hb := by
    refine absurd ?_ hb
    have h : b.id ∈ addAll [] v.state.firedBeats := by
      simpa [knows, Outlook.initial] using h
    simpa [mem_addAll] using h

theorem Sound.unfolds (h : Sound v o) (ho : Unfolds v o o') : Sound v o' where
  opened j a ha h1 h2 l hl := by
    by_cases hj : j ≤ o.furthestAct
    · exact ho.learns.knows (h.opened j a ha h1 hj l hl)
    · exact ho.opened j a ha (by omega) h2 l hl
  ran d hd hk hu e he := by
    unfold knows at hk
    rw [ho.interactions] at hk
    exact (h.ran d hd hk hu e he).mono ho.learns
  fired b hb hk hu e he := by
    unfold knows at hk
    rw [ho.beats] at hk
    exact (h.fired b hb hk hu e he).mono ho.learns

/-! ### Stages -/

theorem unfolds_walkExits (o : Outlook) : Unfolds v o (o.walkExits v) := by
  refine ⟨?_, fun j a _ h1 h2 => by have : j ≤ o.furthestAct := h2; omega, rfl, rfl⟩
  unfold walkExits
  rw [learnAll_visit]
  refine .learnAll o fun f hf => ?_
  obtain ⟨l, hl, rfl⟩ := List.mem_map.1 hf
  obtain ⟨d, hd, rfl⟩ := List.mem_map.1 hl
  exact View.mem_learnable_exit (List.mem_filter.1 hd).1

theorem unfolds_collectItems (o : Outlook) : Unfolds v o (o.collectItems v) := by
  refine ⟨?_, fun j a _ h1 h2 => by have : j ≤ o.furthestAct := h2; omega, rfl, rfl⟩
  unfold collectItems
  dsimp only
  rw [show ∀ lying placed, { o with obtainable := addAll (addAll o.obtainable lying) placed } =
    (o.learnAll (lying.map .gain)).learnAll (placed.map .gain) from fun lying placed => by
      rw [← learnAll_gain, ← learnAll_gain]]
  refine (Learns.learnAll o fun f hf => ?_).trans (.learnAll _ fun f hf => ?_)
  · obtain ⟨i, hi, rfl⟩ := List.mem_map.1 hf
    obtain ⟨d, hd, rfl⟩ := List.mem_map.1 hi
    exact View.mem_learnable_item (List.mem_filter.1 hd).1
  · obtain ⟨i, hi, rfl⟩ := List.mem_map.1 hf
    obtain ⟨p, hp, rfl⟩ := List.mem_map.1 hi
    have hportable := (Bool.and_eq_true_iff.1 (List.mem_filter.1 hp).2).2
    obtain ⟨d, hd, -⟩ := (Option.any_eq_true _ _).1 hportable
    obtain ⟨hmem, hid⟩ := Table.get?_eq_some_iff.1 hd
    rw [← hid]
    exact View.mem_learnable_item hmem

theorem newInteractions_authored {e : Effect}
    (he : e ∈ (o.newInteractions v).flatMap (·.effects)) : e ∈ v.authored := by
  obtain ⟨d, hd, he⟩ := List.mem_flatMap.1 he
  exact mem_authored_interaction (List.mem_filter.1 hd).1 he

theorem newBeats_authored {e : Effect}
    (he : e ∈ (o.newBeats v).flatMap (·.effects)) : e ∈ v.authored := by
  obtain ⟨b, hb, he⟩ := List.mem_flatMap.1 he
  exact mem_authored_beat (List.mem_filter.1 hb).1 he

theorem learns_ran (o : Outlook) :
    Learns v (o.absorbAll v ((o.newInteractions v).flatMap (·.effects))) (o.runInteractions v) := by
  unfold runInteractions
  dsimp only
  rw [learnAll_ran]
  refine .learnAll _ fun f hf => ?_
  obtain ⟨i, hi, rfl⟩ := List.mem_map.1 hf
  obtain ⟨d, hd, rfl⟩ := List.mem_map.1 hi
  exact View.mem_learnable_interaction (List.mem_filter.1 hd).1

theorem learns_fired (o : Outlook) :
    Learns v (o.absorbAll v ((o.newBeats v).flatMap (·.effects))) (o.runBeats v) := by
  unfold runBeats
  dsimp only
  rw [learnAll_beat]
  refine .learnAll _ fun f hf => ?_
  obtain ⟨i, hi, rfl⟩ := List.mem_map.1 hf
  obtain ⟨b, hb, rfl⟩ := List.mem_map.1 hi
  exact View.mem_learnable_beat (List.mem_filter.1 hb).1

theorem learns_runInteractions (o : Outlook) : Learns v o (o.runInteractions v) :=
  (Unfolds.absorbAll o fun _ => newInteractions_authored).1.learns.trans (learns_ran o)

theorem learns_runBeats (o : Outlook) : Learns v o (o.runBeats v) :=
  (Unfolds.absorbAll o fun _ => newBeats_authored).1.learns.trans (learns_fired o)

theorem Sound.runInteractions (h : Sound v o) : Sound v (o.runInteractions v) := by
  obtain ⟨hunfolds, hforesees⟩ := Unfolds.absorbAll o fun e => newInteractions_authored (v := v)
  have hlearns := learns_ran (v := v) o
  have hs := h.unfolds hunfolds
  refine ⟨fun j a ha h1 h2 l hl => hlearns.knows (hs.opened j a ha h1 h2 l hl),
    fun d hd hk hu e he => ?_, fun b hb hk hu e he => (hs.fired b hb hk hu e he).mono hlearns⟩
  refine Foresees.mono ?_ hlearns
  have hk : d.id ∈ addAll _ ((o.newInteractions v).map (·.id)) := List.contains_iff_mem.1 hk
  rcases mem_addAll.1 hk with hk | hk
  · exact hs.ran d hd (List.contains_iff_mem.2 hk) hu e he
  · obtain ⟨d', hd', hid⟩ := List.mem_map.1 hk
    obtain rfl : d' = d :=
      Table.eq_of_id_eq v.catalog.interactions.nodup (List.mem_filter.1 hd').1 hd hid
    exact hforesees e (List.mem_flatMap.2 ⟨d', hd', he⟩)

theorem Sound.runBeats (h : Sound v o) : Sound v (o.runBeats v) := by
  obtain ⟨hunfolds, hforesees⟩ := Unfolds.absorbAll o fun e => newBeats_authored (v := v)
  have hlearns := learns_fired (v := v) o
  have hs := h.unfolds hunfolds
  refine ⟨fun j a ha h1 h2 l hl => hlearns.knows (hs.opened j a ha h1 h2 l hl),
    fun d hd hk hu e he => (hs.ran d hd hk hu e he).mono hlearns, fun b hb hk hu e he => ?_⟩
  refine Foresees.mono ?_ hlearns
  have hk : b.id ∈ addAll _ ((o.newBeats v).map (·.id)) := List.contains_iff_mem.1 hk
  rcases mem_addAll.1 hk with hk | hk
  · exact hs.fired b hb (List.contains_iff_mem.2 hk) hu e he
  · obtain ⟨b', hb', hid⟩ := List.mem_map.1 hk
    obtain rfl : b' = b :=
      Table.eq_of_id_eq v.catalog.beats.nodup (List.mem_filter.1 hb').1 hb hid
    exact hforesees e (List.mem_flatMap.2 ⟨b', hb', he⟩)

def freshGateBeat? (v : View) (o : Outlook) (a : Act) : Option Beat :=
  (a.gateBeat.bind v.catalog.beats.get?).filter fun b => !o.beats.contains b.id

/-- The outlook once the gate beat of an act is taken in. -/
def throughGate (v : View) (o : Outlook) (a : Act) : Outlook :=
  match o.freshGateBeat? v a with
  | some b => (o.absorbAll v b.effects).learn (.beat b.id)
  | none => o

theorem passGates_of_gateMayHold {a : Act} (ha : v.catalog.acts.toList[o.furthestAct]? = some a)
    (hmay : o.gateMayHold v a = true) (hnext : (v.catalog.nextAct? a.id).isSome = true) :
    o.passGates v = (o.throughGate v a).openActs v 1 := by
  unfold passGates
  rw [ha]
  dsimp only
  rw [if_neg (by simp [hmay, Option.isSome_iff_ne_none.1 hnext])]
  show (o.throughGate v a).openActs v
    ((o.throughGate v a).furthestAct + 1 - (o.throughGate v a).furthestAct) = _
  rw [Nat.add_sub_cancel_left]

theorem passGates_eq_self
    (h : ¬∃ a, v.catalog.acts.toList[o.furthestAct]? = some a ∧ o.gateMayHold v a = true ∧
      (v.catalog.nextAct? a.id).isSome = true) : o.passGates v = o := by
  unfold passGates
  cases ha : v.catalog.acts.toList[o.furthestAct]? with
  | none => rfl
  | some a =>
    dsimp only
    rw [if_pos]
    have hclosed : ¬(o.gateMayHold v a = true ∧ (v.catalog.nextAct? a.id).isSome = true) :=
      fun hopen => h ⟨a, ha, hopen⟩
    cases hmay : o.gateMayHold v a <;> simp_all

theorem passGates_cases (v : View) (o : Outlook) :
    o.passGates v = o ∨
    ∃ a, v.catalog.acts.toList[o.furthestAct]? = some a ∧
      o.passGates v = (o.throughGate v a).openActs v 1 := by
  by_cases hopen : ∃ a, v.catalog.acts.toList[o.furthestAct]? = some a ∧
      o.gateMayHold v a = true ∧ (v.catalog.nextAct? a.id).isSome = true
  · obtain ⟨a, ha, hmay, hnext⟩ := hopen
    exact .inr ⟨a, ha, passGates_of_gateMayHold ha hmay hnext⟩
  · exact .inl (passGates_eq_self hopen)

theorem mem_of_freshGateBeat? {a : Act} {b : Beat} (h : o.freshGateBeat? v a = some b) :
    b ∈ v.catalog.beats.toList := by
  unfold freshGateBeat? at h
  obtain ⟨h, -⟩ := Option.filter_eq_some_iff.1 h
  obtain ⟨id, -, h⟩ := Option.bind_eq_some_iff.1 h
  exact Table.mem_of_get? h

theorem learns_throughGate (o : Outlook) (a : Act) : Learns v o (o.throughGate v a) := by
  unfold throughGate
  split
  · rename_i b hb
    have hb := mem_of_freshGateBeat? hb
    exact (Unfolds.absorbAll o fun e => mem_authored_beat hb).1.learns.learn
      (View.mem_learnable_beat hb)
  · exact .refl

theorem furthest_throughGate_lt (h : o.furthestAct < v.catalog.acts.size) (a : Act) :
    (o.throughGate v a).furthestAct < v.catalog.acts.size := by
  unfold throughGate
  split
  · rename_i b _
    exact Unfolds.furthest_absorbAll_lt h b.effects
  · exact h

theorem Sound.throughGate (h : Sound v o) (a : Act) : Sound v (o.throughGate v a) := by
  unfold Outlook.throughGate
  split
  · rename_i b hb
    have hb := mem_of_freshGateBeat? hb
    obtain ⟨hunfolds, hforesees⟩ := Unfolds.absorbAll o fun e => mem_authored_beat (v := v) hb
    have hs := h.unfolds hunfolds
    have hlearns : Learns v (o.absorbAll v b.effects)
        ((o.absorbAll v b.effects).learn (.beat b.id)) :=
      .learn .refl (View.mem_learnable_beat hb)
    refine ⟨fun j a ha h1 h2 l hl => hlearns.knows (hs.opened j a ha h1 h2 l hl),
      fun d hd hk hu e he => (hs.ran d hd hk hu e he).mono hlearns, fun b' hb' hk hu e he => ?_⟩
    refine Foresees.mono ?_ hlearns
    have hk : b'.id ∈ (o.absorbAll v b.effects).beats.insert b.id := List.contains_iff_mem.1 hk
    rcases List.mem_insert_iff.1 hk with hk | hk
    · obtain rfl : b' = b := Table.eq_of_id_eq v.catalog.beats.nodup hb' hb hk
      exact hforesees e he
    · exact hs.fired b' hb' (List.contains_iff_mem.2 hk) hu e he
  · exact h

theorem learns_passGates (o : Outlook) : Learns v o (o.passGates v) := by
  rcases passGates_cases v o with h | ⟨a, ha, h⟩
  · rw [h]
    exact .refl
  · have hlt := furthest_throughGate_lt (List.getElem?_eq_some_iff.1 ha).1 a
    rw [h]
    exact (learns_throughGate o a).trans (Unfolds.openActs (.inr hlt)).1.learns

theorem Sound.passGates (h : Sound v o) : Sound v (o.passGates v) := by
  rcases passGates_cases v o with heq | ⟨a, ha, heq⟩
  · rw [heq]
    exact h
  · have hlt := furthest_throughGate_lt (List.getElem?_eq_some_iff.1 ha).1 a
    rw [heq]
    exact (h.throughGate a).unfolds (Unfolds.openActs (.inr hlt)).1

/-! ### Rounds -/

/-- The stages of a round that come before the gates. -/
def beforeGates (v : View) (o : Outlook) : Outlook :=
  (((o.walkExits v).collectItems v).runInteractions v).runBeats v

theorem learns_beforeGates (o : Outlook) : Learns v o (o.beforeGates v) :=
  ((unfolds_walkExits o).learns.trans (unfolds_collectItems _).learns).trans
    ((learns_runInteractions _).trans (learns_runBeats _))

theorem learns_round (o : Outlook) : Learns v o (o.round v) :=
  (learns_beforeGates o).trans (learns_passGates _)

theorem Sound.round (h : Sound v o) : Sound v (o.round v) := by
  have hcollected := (h.unfolds (unfolds_walkExits o)).unfolds (unfolds_collectItems _)
  exact hcollected.runInteractions.runBeats.passGates

theorem Sound.settle (h : Sound v o) (n : Nat) : Sound v (o.settle v n) := by
  induction n generalizing o with
  | zero => exact h
  | succ n ih =>
    unfold Outlook.settle
    dsimp only
    split
    · exact h.round
    · exact ih h.round

theorem learns_settle (o : Outlook) (n : Nat) : Learns v o (o.settle v n) := by
  induction n generalizing o with
  | zero => exact .refl
  | succ n ih =>
    unfold settle
    dsimp only
    split
    · exact learns_round o
    · exact (learns_round o).trans (ih _)

/-- With as many rounds as there are facts to learn, and one more, the last round learns nothing. -/
theorem round_settle {n : Nat} (h : Learns.unknown v o < n) :
    (o.settle v n).round v = o.settle v n := by
  induction n generalizing o with
  | zero => omega
  | succ n ih =>
    unfold settle
    dsimp only
    split
    · rename_i hsize
      have heq := (learns_round o).eq_of_size_eq hsize
      rw [heq, heq]
    · rename_i hsize
      rcases (learns_round (v := v) o).eq_or_lt with heq | ⟨-, hlt⟩
      · exact absurd (congrArg size heq) hsize
      · exact ih (by omega)

theorem settle_of_round_eq (h : o.round v = o) (n : Nat) : o.settle v n = o := by
  cases n with
  | zero => rfl
  | succ n =>
    unfold settle
    dsimp only
    rw [h, if_pos rfl]

theorem settle_succ (v : View) (o : Outlook) (n : Nat) :
    o.settle v (n + 1) = (o.round v).settle v n := by
  rw [settle]
  split
  · rename_i hsize
    have heq := (learns_round o).eq_of_size_eq hsize
    rw [heq, settle_of_round_eq heq]
  · rfl

/-- No stage of a round changes the outlook. -/
structure Closed (v : View) (o : Outlook) : Prop where
  walkExits : o.walkExits v = o
  collectItems : o.collectItems v = o
  runInteractions : o.runInteractions v = o
  runBeats : o.runBeats v = o
  passGates : o.passGates v = o

theorem Closed.of_round (h : o.round v = o) : Closed v o := by
  have hwalk := (unfolds_walkExits (v := v) o).learns
  have hcollect := (unfolds_collectItems (v := v) (o.walkExits v)).learns
  have hrun := learns_runInteractions (v := v) ((o.walkExits v).collectItems v)
  have hbeat := learns_runBeats (v := v) (((o.walkExits v).collectItems v).runInteractions v)
  have hpass := learns_passGates (v := v)
    ((((o.walkExits v).collectItems v).runInteractions v).runBeats v)
  change Learns v _ (o.round v) at hpass
  rw [h] at hpass
  -- Every stage lies between the outlook and itself.
  have h1 := hwalk.antisymm (((hcollect.trans hrun).trans hbeat).trans hpass)
  rw [h1] at hcollect hrun hbeat hpass
  have h2 := hcollect.antisymm ((hrun.trans hbeat).trans hpass)
  rw [h2] at hrun hbeat hpass
  have h3 := hrun.antisymm (hbeat.trans hpass)
  rw [h3] at hbeat hpass
  have h4 := hbeat.antisymm hpass
  refine ⟨h1, h2, h3, h4, ?_⟩
  unfold round at h
  rwa [h1, h2, h3, h4] at h

theorem explore_closed (v : View) : Closed v (explore v) := by
  refine .of_round (round_settle ?_)
  have hle : Learns.unknown v (initial v) ≤ v.learnable.length := List.countP_le_length
  have := v.length_learnable_le
  omega

theorem explore_sound (v : View) : Sound v (explore v) := Sound.initial.settle _

theorem learns_explore (v : View) : Learns v (initial v) (explore v) := learns_settle _ _

/-! ### What a closed outlook foresees -/

namespace Closed

variable (h : Closed v o)
include h

theorem visit {d : Exit} (hd : d ∈ v.catalog.exits.toList)
    (horigin : o.knows (.visit d.origin) = true)
    (hdestination : o.knows (.bound d.destination) = true)
    (hpass : (v.exit? d.id).any (o.mayPass v) = true) :
    o.knows (.visit d.destination) = true := by
  have hwalk := congrArg visitable h.walkExits
  unfold Outlook.walkExits at hwalk
  refine List.contains_iff_mem.2 (hwalk ▸ mem_addAll.2 (.inr ?_))
  refine List.mem_map.2 ⟨d, List.mem_filter.2 ⟨hd, ?_⟩, rfl⟩
  exact Bool.and_eq_true_iff.2 ⟨Bool.and_eq_true_iff.2 ⟨horigin, hdestination⟩, hpass⟩

theorem gain_lying {d : Item} (hd : d ∈ v.catalog.items.toList) (hportable : d.portable = true)
    (hlies : o.liesVisitable v d.id = true) : o.knows (.gain d.id) = true := by
  have hcollect := congrArg obtainable h.collectItems
  unfold Outlook.collectItems at hcollect
  refine List.contains_iff_mem.2 (hcollect ▸ mem_addAll.2 (.inl (mem_addAll.2 (.inr ?_))))
  exact List.mem_map.2 ⟨d, List.mem_filter.2 ⟨hd, by rw [hportable, hlies]; rfl⟩, rfl⟩

theorem gain_placed {i l : EntityId} (hplace : o.knows (.place i l) = true)
    (hvisit : o.knows (.visit l) = true) (hportable : v.catalog.isPortable i = true) :
    o.knows (.gain i) = true := by
  have hcollect := congrArg obtainable h.collectItems
  unfold Outlook.collectItems at hcollect
  refine List.contains_iff_mem.2 (hcollect ▸ mem_addAll.2 (.inr ?_))
  refine List.mem_map.2 ⟨(i, l), List.mem_filter.2 ⟨List.contains_iff_mem.1 hplace, ?_⟩, rfl⟩
  exact Bool.and_eq_true_iff.2 ⟨hvisit, hportable⟩

theorem interaction (hs : Sound v o) {d : Interaction} (hd : d ∈ v.catalog.interactions.toList)
    (hunused : d.repeatable = true ∨ d.id ∉ v.state.usedInteractions)
    (hmay : o.mayRun v d = true) :
    (∀ e ∈ d.effects, o.Foresees v e) ∧ o.knows (.ran d.id) = true := by
  by_cases hnew : d ∈ o.newInteractions v
  · obtain ⟨hunfolds, hforesees⟩ := Unfolds.absorbAll o fun _ => newInteractions_authored (v := v)
    have hran := learns_ran (v := v) o
    rw [h.runInteractions] at hran
    rw [hunfolds.learns.antisymm hran] at hforesees
    refine ⟨fun e he => hforesees e (List.mem_flatMap.2 ⟨d, hnew, he⟩), ?_⟩
    have hrun := congrArg interactions h.runInteractions
    unfold Outlook.runInteractions at hrun
    exact List.contains_iff_mem.2 (hrun ▸ mem_addAll.2 (.inr (List.mem_map.2 ⟨d, hnew, rfl⟩)))
  · -- It was taken in before, and does not repeat.
    have hold : d.repeatable = false ∧
        (o.knows (.ran d.id) = false → d.id ∈ v.state.usedInteractions) := by
      have hfilter := fun hc => hnew (List.mem_filter.2 ⟨hd, hc⟩)
      rw [hmay, Bool.and_true] at hfilter
      simpa [-List.contains_eq_mem, SortedSet.mem_iff_contains, knows] using hfilter
    have hunused : d.id ∉ v.state.usedInteractions := by
      rcases hunused with hr | hu
      · rw [hold.1] at hr
        cases hr
      · exact hu
    have hk : o.knows (.ran d.id) = true := by
      cases hk : o.knows (.ran d.id) with
      | true => rfl
      | false => exact absurd (hold.2 hk) hunused
    exact ⟨hs.ran d hd hk hunused, hk⟩

theorem beat (hs : Sound v o) (ho : Learns v (Outlook.initial v) o) {b : Beat}
    (hb : b ∈ v.catalog.beats.toList) (hgate : v.catalog.isGateBeat b.id = false)
    (hmay : o.may v b.trigger = true) :
    o.knows (.beat b.id) = true ∧
      (b.id ∉ v.state.firedBeats → ∀ e ∈ b.effects, o.Foresees v e) := by
  have hk : o.knows (.beat b.id) = true := by
    cases hunknown : o.knows (.beat b.id) with
    | true => rfl
    | false =>
      have hunfired : b.id ∉ v.state.firedBeats := fun hfired => by
        have := ho.knows (f := .beat b.id) (List.contains_iff_mem.2 (mem_addAll.2 (.inr hfired)))
        rw [hunknown] at this
        cases this
      have hnew : b ∈ o.newBeats v := by
        refine List.mem_filter.2 ⟨hb, ?_⟩
        have hunknown : o.beats.contains b.id = false := hunknown
        rw [hgate, hunknown, hmay]
        simp [hunfired]
      have hrun := congrArg beats h.runBeats
      unfold Outlook.runBeats at hrun
      rw [← hunknown]
      exact List.contains_iff_mem.2 (hrun ▸ mem_addAll.2 (.inr (List.mem_map.2 ⟨b, hnew, rfl⟩)))
  exact ⟨hk, hs.fired b hb hk⟩

theorem gate {a : Act} (ha : v.catalog.acts.toList[o.furthestAct]? = some a)
    (hnext : (v.catalog.nextAct? a.id).isSome = true) : o.gateMayHold v a = false := by
  cases hmay : o.gateMayHold v a with
  | false => rfl
  | true =>
    have hlt := furthest_throughGate_lt (v := v) (List.getElem?_eq_some_iff.1 ha).1 a
    have hpass := congrArg furthestAct (passGates_of_gateMayHold ha hmay hnext)
    rw [h.passGates, (Unfolds.openActs (.inr hlt)).2] at hpass
    have hle := (learns_throughGate (v := v) o a).furthestAct_le
    omega

end Closed
end Outlook
end Storyworld
