import Storyworld.Proofs.Rounds
import Storyworld.Proofs.Simulation

/-!
# Beats that an outlook anticipates

Exploring takes in beats so that what they may still do is foreseen: a beat once its trigger may
hold, a gate beat once the act that it closes is left. `Thorough` is that no beat which can still
fire is left out. Two kinds are. A beat that has fired counts as taken in from the start, so that
one that repeats is not taken in again (`not_fired_of_mem_newBeats`); and an act that an effect
jumps over is never left, so that its gate beat is not taken in (`knows_gateBeat_iff`). Nothing else
is left out (`thorough_explore_iff`).
-/

namespace Storyworld
namespace Outlook

variable {v : View} {o : Outlook} {a : Act} {b : Beat} {e : Effect} {k : Nat}

/-- Taking in the effects of the beat again changes nothing. -/
def Absorbed (v : View) (o : Outlook) (b : Beat) : Prop := ∀ e ∈ b.effects, o.absorb v e = o

/-- The beat can still fire, as far as the outlook sees: because it is due, or at the gate of an act
from the current one on. -/
inductive CanFire (v : View) (o : Outlook) (b : Beat) : Prop
  | due (declared : b ∈ v.catalog.beats.toList) (gate : v.catalog.isGateBeat b.id = false)
      (again : b.repeatable = true ∨ b.id ∉ v.state.firedBeats)
      (trigger : o.may v b.trigger = true)
  | gate {i : Nat} {a : Act} (act : v.catalog.acts.toList[i]? = some a)
      (current : (initial v).furthestAct ≤ i) (reached : i ≤ o.furthestAct)
      (next : (v.catalog.nextAct? a.id).isSome = true) (gate : o.gateMayHold v a = true)
      (beat : a.gateBeat.bind v.catalog.beats.get? = some b) (unfired : b.id ∉ v.state.firedBeats)

/-- Every beat that can still fire is taken in. -/
def Thorough (v : View) (o : Outlook) : Prop := ∀ b, o.CanFire v b → o.Absorbed v b

/-- An effect changes an outlook unless it is foreseen. -/
theorem absorb_eq_self_iff : o.absorb v e = o ↔ o.Foresees v e := by
  refine ⟨fun h => h ▸ foresees_absorb v o e, fun h => ?_⟩
  obtain ⟨act, rfl⟩ | hact := e.eq_advanceAct_or_ne
  · cases hi : v.catalog.acts.position? act with
    | none => exact absorb_advanceAct_of_none hi
    | some i =>
      have hle : i ≤ o.furthestAct := of_decide_eq_true (h (.act i) (by simp [View.facts, hi]))
      rw [absorb_advanceAct hi, Nat.sub_eq_zero_of_le hle]
      rfl
  · rw [absorb_eq_learnAll hact]
    unfold Foresees at h
    generalize v.facts e = fs at h
    induction fs with
    | nil => rfl
    | cons f fs ih =>
      show (o.learn f).learnAll fs = o
      rw [learn_of_knows (h f (.head _))]
      exact ih fun g hg => h g (.tail _ hg)

theorem absorbed_iff : o.Absorbed v b ↔ ∀ e ∈ b.effects, o.Foresees v e :=
  forall₂_congr fun _ _ => absorb_eq_self_iff

/-! ### Beats that have fired -/

/-- The outlook of a round that chooses the beats to take in. -/
def beforeBeats (v : View) (o : Outlook) : Outlook :=
  ((o.walkExits v).collectItems v).runInteractions v

theorem learns_beforeBeats (o : Outlook) : Learns v o (o.beforeBeats v) :=
  ((unfolds_walkExits o).learns.trans (unfolds_collectItems _).learns).trans
    (learns_runInteractions _)

theorem learns_rounds (v : View) (k : Nat) : Learns v (initial v) (rounds v k) := by
  induction k with
  | zero => exact .refl
  | succ k ih => exact ih.trans (learns_rounds_succ v k)

/-- No round takes in a beat that has fired, whether it repeats or not. -/
theorem not_fired_of_mem_newBeats (h : b ∈ ((rounds v k).beforeBeats v).newBeats v) :
    b.id ∉ v.state.firedBeats := by
  intro hfired
  have hknown : (initial v).knows (.beat b.id) = true :=
    List.contains_iff_mem.2 (mem_addAll.2 (.inr hfired))
  have hbefore := (learns_beforeBeats (v := v) _).knows ((learns_rounds v k).knows hknown)
  have hbefore : ((rounds v k).beforeBeats v).beats.contains b.id = true := hbefore
  have hnew := (List.mem_filter.1 h).2
  rw [hbefore] at hnew
  simp at hnew

/-! ### Acts that are left -/

structure Leaves (v : View) (o : Outlook) (a : Act) : Prop where
  furthest : v.catalog.acts.toList[o.furthestAct]? = some a
  gate : o.gateMayHold v a = true
  next : (v.catalog.nextAct? a.id).isSome = true

/-- The act is left in a round. -/
def LeftIn (v : View) (k : Nat) (a : Act) : Prop := ((rounds v k).beforeGates v).Leaves v a

theorem Leaves.passGates_eq (h : o.Leaves v a) :
    o.passGates v = (o.throughGate v a).openActs v 1 :=
  passGates_of_gateMayHold h.furthest h.gate h.next

theorem Leaves.knows_gateBeat (h : o.Leaves v a)
    (hb : a.gateBeat.bind v.catalog.beats.get? = some b) :
    (o.passGates v).knows (.beat b.id) = true := by
  have hthrough : (o.throughGate v a).knows (.beat b.id) = true := by
    unfold throughGate freshGateBeat?
    rw [hb]
    cases hknown : o.beats.contains b.id with
    | true =>
      simp only [Option.filter, hknown, Bool.not_true]
      exact hknown
    | false =>
      simp only [Option.filter, hknown, Bool.not_false, if_true]
      exact knows_learn_self _ _
  have hlt := furthest_throughGate_lt (v := v) (List.getElem?_eq_some_iff.1 h.furthest).1 a
  rw [h.passGates_eq]
  exact (Unfolds.openActs (.inr hlt)).1.learns.knows hthrough

theorem knows_beat_of_beforeGates {x : EntityId} (hgate : v.catalog.isGateBeat x = true)
    (h : (o.beforeGates v).knows (.beat x) = true) : o.knows (.beat x) = true := by
  have hran : (o.beforeBeats v).beats = o.beats :=
    (Unfolds.absorbAll ((o.walkExits v).collectItems v)
      fun _ => newInteractions_authored (v := v)).1.beats
  have hfired := (Unfolds.absorbAll (o.beforeBeats v)
    fun _ => newBeats_authored (v := v) (o := o.beforeBeats v)).1.beats
  have h : x ∈ addAll _ (((o.beforeBeats v).newBeats v).map (·.id)) := List.contains_iff_mem.1 h
  rcases mem_addAll.1 h with h | h
  · refine List.contains_iff_mem.2 ?_
    rw [← hfired.trans hran]
    exact h
  · obtain ⟨b, hb, rfl⟩ := List.mem_map.1 h
    have hnew := (List.mem_filter.1 hb).2
    rw [hgate] at hnew
    cases hnew

theorem knows_beat_of_passGates {x : EntityId} (h : (o.passGates v).knows (.beat x) = true) :
    o.knows (.beat x) = true ∨ ∃ a, o.Leaves v a ∧ a.gateBeat = some x := by
  by_cases hleaves : ∃ a, o.Leaves v a
  · obtain ⟨a, ha⟩ := hleaves
    have hlt := furthest_throughGate_lt (v := v) (List.getElem?_eq_some_iff.1 ha.furthest).1 a
    have hopen := (Unfolds.openActs (v := v) (o := o.throughGate v a) (n := 1) (.inr hlt)).1.beats
    rw [ha.passGates_eq] at h
    have h : x ∈ (o.throughGate v a).beats := hopen ▸ List.contains_iff_mem.1 h
    unfold throughGate at h
    split at h
    · rename_i b hb
      have hbeats := (Unfolds.absorbAll o fun _ =>
        mem_authored_beat (v := v) (mem_of_freshGateBeat? hb)).1.beats
      rcases List.mem_insert_iff.1 h with rfl | h
      · obtain ⟨hb, -⟩ := Option.filter_eq_some_iff.1 hb
        obtain ⟨id, hgate, hget⟩ := Option.bind_eq_some_iff.1 hb
        exact .inr ⟨a, ha, hgate.trans (congrArg some (Table.id_of_get? hget).symm)⟩
      · rw [hbeats] at h
        exact .inl (List.contains_iff_mem.2 h)
    · exact .inl (List.contains_iff_mem.2 h)
  · rw [passGates_eq_self fun ⟨a, ha, hmay, hnext⟩ => hleaves ⟨a, ha, hmay, hnext⟩] at h
    exact .inl h

/-- After so many rounds a gate beat is known that has fired, or whose act was left in one of
them. -/
theorem leftIn_of_knows {x : EntityId} (hgate : v.catalog.isGateBeat x = true)
    (hunfired : x ∉ v.state.firedBeats) (h : (rounds v k).knows (.beat x) = true) :
    ∃ j a, LeftIn v j a ∧ a.gateBeat = some x := by
  induction k with
  | zero =>
    have h : x ∈ addAll [] v.state.firedBeats := List.contains_iff_mem.1 h
    exact absurd (by simpa [mem_addAll] using h) hunfired
  | succ k ih =>
    rcases knows_beat_of_passGates (o := (rounds v k).beforeGates v) h with h | ⟨a, ha, hx⟩
    · exact ih (knows_beat_of_beforeGates hgate h)
    · exact ⟨k, a, ha, hx⟩

theorem learns_rounds_explore (v : View) (k : Nat) : Learns v (rounds v k) (explore v) := by
  obtain ⟨n, -, hn⟩ := exists_settlesAt v
  have hlater : ∀ m, Learns v (rounds v k) (rounds v (k + m)) := fun m => by
    induction m with
    | zero => exact .refl
    | succ m ih => exact ih.trans (learns_rounds_succ v (k + m))
  exact hn.same (k + n) (by omega) ▸ hlater n

/-- Of the gate beats that have not fired, those are taken in whose acts some round leaves. -/
theorem knows_gateBeat_iff (hb : b ∈ v.catalog.beats.toList)
    (hgate : v.catalog.isGateBeat b.id = true) (hunfired : b.id ∉ v.state.firedBeats) :
    (explore v).knows (.beat b.id) = true ↔ ∃ k a, LeftIn v k a ∧ a.gateBeat = some b.id := by
  refine ⟨fun h => ?_, fun ⟨k, a, ha, hbeat⟩ => ?_⟩
  · rw [explore_eq_rounds] at h
    exact leftIn_of_knows hgate hunfired h
  · have hget : a.gateBeat.bind v.catalog.beats.get? = some b := by
      rw [hbeat]
      exact Table.get?_eq_some_iff.2 ⟨hb, rfl⟩
    exact (learns_rounds_explore v (k + 1)).knows (ha.knows_gateBeat hget)

/-! ### What is left out -/

/-- No round takes the beat in: it has fired, or it is at the gate of an act that no round
leaves. -/
def LeftOut (v : View) (b : Beat) : Prop :=
  b.id ∈ v.state.firedBeats ∨
    v.catalog.isGateBeat b.id = true ∧ ∀ k a, LeftIn v k a → a.gateBeat ≠ some b.id

theorem CanFire.isGateBeat {a : Act} {i : Nat} (ha : v.catalog.acts.toList[i]? = some a)
    (hb : a.gateBeat.bind v.catalog.beats.get? = some b) :
    b ∈ v.catalog.beats.toList ∧ a.gateBeat = some b.id ∧ v.catalog.isGateBeat b.id = true := by
  obtain ⟨id, hgate, hget⟩ := Option.bind_eq_some_iff.1 hb
  obtain rfl : b.id = id := Table.id_of_get? hget
  exact ⟨Table.mem_of_get? hget, hgate,
    List.any_eq_true.2 ⟨a, List.mem_of_getElem? ha, by simp [hgate]⟩⟩

/-- A beat that can still fire and is not left out is taken in. -/
theorem CanFire.absorbed (h : (explore v).CanFire v b) (hin : ¬LeftOut v b) :
    (explore v).Absorbed v b := by
  have hunfired : b.id ∉ v.state.firedBeats := fun hfired => hin (.inl hfired)
  have hs := explore_sound v
  rw [absorbed_iff]
  cases h with
  | due hb hgate _ hmay =>
    exact ((explore_closed v).beat hs (learns_explore v) hb hgate hmay).2 hunfired
  | gate ha _ _ _ _ hbeat _ =>
    obtain ⟨hb, -, hgate⟩ := isGateBeat ha hbeat
    refine hs.fired b hb ((knows_gateBeat_iff hb hgate hunfired).2 ?_) hunfired
    by_contra hleft
    exact hin (.inr ⟨hgate, fun k a ha hx => hleft ⟨k, a, ha, hx⟩⟩)

end Outlook

/-- No effect goes forward from the current act, and no beat that repeats has fired. -/
structure View.Plain (v : View) : Prop where
  stays : ∀ act i, .advanceAct act ∈ v.authored → v.catalog.acts.position? act = some i →
    i ≤ (Outlook.initial v).furthestAct
  fresh : ∀ b ∈ v.catalog.beats.toList, b.repeatable = true → b.id ∉ v.state.firedBeats

namespace Outlook

variable {v : View} {o : Outlook} {k : Nat}

theorem furthestAct_absorbAll_of_plain (hv : v.Plain) (ho : Learns v (initial v) o)
    {es : List Effect} (hes : ∀ e ∈ es, e ∈ v.authored) :
    (o.absorbAll v es).furthestAct = o.furthestAct := by
  have hfrom := ho.furthestAct_le
  have hforward := (Unfolds.absorbAll o hes).1.learns.furthestAct_le
  by_contra hne
  have hpast : o.furthestAct + 1 ≤ es.foldl (Effect.reach v.catalog) o.furthestAct := by
    rw [← furthestAct_absorbAll]
    omega
  obtain hle | ⟨act, j, hact, hj, hle⟩ := Effect.le_foldl_reach_iff.1 hpast
  · omega
  · have := hv.stays act j (hes _ hact) hj
    omega

theorem furthestAct_beforeGates_of_plain (hv : v.Plain) (ho : Learns v (initial v) o) :
    (o.beforeGates v).furthestAct = o.furthestAct := by
  have hcollected := ho.trans ((unfolds_walkExits o).learns.trans (unfolds_collectItems _).learns)
  have hran := furthestAct_absorbAll_of_plain hv hcollected
    fun _ => newInteractions_authored (v := v) (o := (o.walkExits v).collectItems v)
  have hfired := furthestAct_absorbAll_of_plain hv (ho.trans (learns_beforeBeats o))
    fun _ => newBeats_authored (v := v) (o := o.beforeBeats v)
  exact hfired.trans hran

theorem furthestAct_throughGate_of_plain (hv : v.Plain) (ho : Learns v (initial v) o) (a : Act) :
    (o.throughGate v a).furthestAct = o.furthestAct := by
  unfold throughGate
  split
  · rename_i b hb
    exact furthestAct_absorbAll_of_plain hv ho fun _ => mem_authored_beat (mem_of_freshGateBeat? hb)
  · rfl

theorem leftIn_of_plain (hv : v.Plain) {i : Nat} (hfrom : (initial v).furthestAct ≤ i)
    (hi : i < (rounds v k).furthestAct) :
    ∃ j a, LeftIn v j a ∧ v.catalog.acts.toList[i]? = some a := by
  induction k with
  | zero => exact absurd hi (by simpa [rounds] using hfrom)
  | succ k ih =>
    have hbefore := furthestAct_beforeGates_of_plain hv (learns_rounds v k)
    by_cases hleaves : ∃ a, LeftIn v k a
    · obtain ⟨a, ha⟩ := hleaves
      have hi : i < (((rounds v k).beforeGates v).passGates v).furthestAct := hi
      rw [furthestAct_passGates ha.furthest ha.gate ha.next, furthestAct_throughGate_of_plain hv
        ((learns_rounds v k).trans (learns_beforeGates _))] at hi
      by_cases hlt : i < (rounds v k).furthestAct
      · exact ih hlt
      · obtain rfl : i = ((rounds v k).beforeGates v).furthestAct := by omega
        exact ⟨k, a, ha, ha.furthest⟩
    · have hsame := passGates_eq_self (v := v) (o := (rounds v k).beforeGates v)
        fun ⟨a, ha, hmay, hnext⟩ => hleaves ⟨a, ha, hmay, hnext⟩
      have hi : i < (((rounds v k).beforeGates v).passGates v).furthestAct := hi
      rw [hsame, hbefore] at hi
      exact ih hi

theorem CanFire.not_leftOut_of_plain (hv : v.Plain) {b : Beat} (h : (explore v).CanFire v b) :
    ¬LeftOut v b := by
  rintro (hfired | ⟨hgate, hleft⟩)
  · cases h with
    | due hb _ again _ => exact again.elim (fun hr => hv.fresh b hb hr hfired) fun hu => hu hfired
    | gate _ _ _ _ _ _ hunfired => exact hunfired hfired
  · cases h with
    | due _ hdue _ _ =>
      rw [hgate] at hdue
      cases hdue
    | @gate i a ha hfrom hle hnext hmay hbeat _ =>
      obtain ⟨-, hbeat, -⟩ := isGateBeat ha hbeat
      -- The furthest act may not be left any more, so this one comes before it.
      have hlt : i < (explore v).furthestAct := by
        refine Nat.lt_of_le_of_ne hle fun heq => ?_
        rw [heq] at ha
        rw [(explore_closed v).gate ha hnext] at hmay
        cases hmay
      rw [explore_eq_rounds] at hlt
      obtain ⟨k, a', ha', hact⟩ := leftIn_of_plain hv hfrom hlt
      obtain rfl : a' = a := Option.some.inj (hact.symm.trans ha)
      exact hleft k a' ha' hbeat

/-- Exploring takes in every beat that can still fire, but for those that have fired and repeat and
those at the gates of acts that no round leaves. It leaves nothing out of a session in which no
effect goes forward and no beat that repeats has fired. -/
theorem thorough_explore_iff (v : View) :
    (Thorough v (explore v) ↔
      ∀ b, (explore v).CanFire v b → LeftOut v b → (explore v).Absorbed v b) ∧
    (∀ k, ∀ b ∈ ((rounds v k).beforeBeats v).newBeats v, b.id ∉ v.state.firedBeats) ∧
    (∀ b ∈ v.catalog.beats.toList, v.catalog.isGateBeat b.id = true →
      b.id ∉ v.state.firedBeats →
        ((explore v).knows (.beat b.id) = true ↔ ∃ k a, LeftIn v k a ∧ a.gateBeat = some b.id)) ∧
    (v.Plain → Thorough v (explore v)) := by
  refine ⟨⟨fun h b hb _ => h b hb, fun h b hb => ?_⟩, fun _ _ => not_fired_of_mem_newBeats,
    fun b => knows_gateBeat_iff, fun hv b hb => hb.absorbed (hb.not_leftOut_of_plain hv)⟩
  by_cases hout : LeftOut v b
  · exact h b hb hout
  · exact hb.absorbed hout

end Outlook

/-- A crossing at the end of the dawn, which the bell brings about. The dive goes forward to an act
by itself. -/
def crossingDoc (act : EntityId) : WorldDocument where
  world := some { title := "Crossing" }
  start := some { location := "quay" }
  locations := [{ id := "quay", name := "Quay" }]
  interactions := [
    { id := "ring", triggers := ["ring"], effects := [.setFlag "rung" (.bool true)] },
    { id := "dive", triggers := ["dive"], effects := [.advanceAct act] }]
  beats := [{ id := "crossing", effects := [.setFlag "crossed" (.bool true)] }]
  acts := [
    { id := "dawn", locations := ["quay"], gate := some (.atom (.flag "rung"))
      gateBeat := some "crossing" },
    { id := "dusk" }]
  victory := [{ id := "over", condition := .atom (.flag "crossed") }]

def crossing (act : EntityId) : Catalog := .draft (crossingDoc act)

def crossingAtDawn (act : EntityId) : View := ⟨crossing act, .initial (crossing act)⟩

/-- A shore that the ebb bares whenever the player comes to it, and the flow covers once. -/
def tideDoc : WorldDocument where
  world := some { title := "Tide" }
  start := some { location := "shore" }
  locations := [{ id := "shore", name := "Shore" }, { id := "hut", name := "Hut" }]
  exits := [
    { id := "path", origin := "shore", destination := "hut", direction := some "north" },
    { id := "steps", origin := "hut", destination := "shore", direction := some "south" }]
  beats := [
    { id := "ebb", trigger := .atom (.at "shore"), effects := [.setFlag "bared" (.bool true)]
      repeatable := true },
    { id := "flow", effects := [.clearFlag "bared"] }]
  acts := [{ id := "day", locations := ["shore", "hut"] }]
  victory := [{ id := "found", condition := .atom (.flag "bared") }]

def tide : Catalog := .draft tideDoc

/-- The tide after a turn, in which it went out and came in. -/
def tideIn : View := ⟨tide, (Line.play tide { input := "look" } (.initial tide)).state⟩

/-- Where the dive goes nowhere, nothing is left out: the crossing is foreseen. -/
theorem crossing_foreseen :
    (crossingAtDawn "dawn").Plain ∧
      Outlook.Thorough (crossingAtDawn "dawn") (.explore (crossingAtDawn "dawn")) ∧
      (crossingAtDawn "dawn").canWin = true := by
  have hplain : (crossingAtDawn "dawn").Plain := by
    refine ⟨fun act i hact hi => ?_, by decide⟩
    have hmem : Effect.advanceAct act ∈ [Effect.setFlag "rung" (.bool true), .advanceAct "dawn",
      .setFlag "crossed" (.bool true)] := hact
    obtain rfl : act = "dawn" := by simpa using hmem
    obtain rfl : 0 = i := Option.some.inj hi
    exact Nat.zero_le _
  exact ⟨hplain, (Outlook.thorough_explore_iff _).2.2.2 hplain, by decide +kernel⟩

/-- The ebb is left out once it has gone, and the session seems lost, although the player only has
to leave the shore and come back. So is the crossing where the dive goes to the dusk, even in a new
session. -/
theorem ebb_and_crossing_left_out :
    (¬∀ (c : Catalog) (s : State), c.Accepted → Reachable c s →
      Outlook.Thorough ⟨c, s⟩ (.explore ⟨c, s⟩)) ∧
    ¬∀ c : Catalog, c.Accepted →
      Outlook.Thorough ⟨c, .initial c⟩ (.explore ⟨c, .initial c⟩) := by
  constructor
  · intro h
    have htide : tide.Accepted := ⟨tideDoc, Catalog.ofDocument_eq_ok_iff.2 ⟨by decide, rfl⟩⟩
    have hebb : ∃ b ∈ tide.beats.toList, tide.isGateBeat b.id = false ∧ b.repeatable = true ∧
        (Outlook.explore tideIn).may tideIn b.trigger = true ∧
        ∃ e ∈ b.effects, (Outlook.explore tideIn).absorb tideIn e ≠ .explore tideIn := by
      decide +kernel
    obtain ⟨b, hb, hgate, hrepeats, hmay, e, he, hnew⟩ := hebb
    exact hnew (h tide _ htide (.turn .refl { input := "look" }) b
      (.due hb hgate (.inl hrepeats) hmay) e he)
  · intro h
    have hc : (crossing "dusk").Accepted := ⟨_, Catalog.ofDocument_eq_ok_iff.2 ⟨by decide, rfl⟩⟩
    let v := crossingAtDawn "dusk"
    obtain ⟨a, hact, hnext, hmay, b, hbeat, hunfired, e, he, hnew⟩ :
        ∃ a, v.catalog.acts.toList[0]? = some a ∧ (v.catalog.nextAct? a.id).isSome = true ∧
          (Outlook.explore v).gateMayHold v a = true ∧
          ∃ b, a.gateBeat.bind v.catalog.beats.get? = some b ∧ b.id ∉ v.state.firedBeats ∧
            ∃ e ∈ b.effects, (Outlook.explore v).absorb v e ≠ .explore v :=
      ⟨_, rfl, rfl, by decide +kernel, _, rfl, by decide, by decide +kernel⟩
    exact hnew (h _ hc b
      (.gate hact (Nat.le_refl 0) (Nat.zero_le _) hnext hmay hbeat hunfired) e he)

end Storyworld
