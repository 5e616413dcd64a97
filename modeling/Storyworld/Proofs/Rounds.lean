import Mathlib.Data.Nat.Find
import Storyworld.Proofs.ActHistory
import Storyworld.Proofs.Foresight

/-!
# Rounds of exploring

Exploring takes one round after another (`rounds`) and ends with the first that learns nothing
(`SettlesAt`). No round forgets anything, and the acts that a round reaches are declared unless the
way out of an act overshoots: the gate beat is taken in first, and the act opened after that is the
one that follows the furthest, not the one that follows the act that was left. A gate beat that goes
forward to the last act therefore leaves the outlook past the end (`explore_fixpoint`).
-/

namespace Storyworld

/-- No gate beat goes forward to the last act. -/
def Catalog.GatesStopShort (c : Catalog) : Prop :=
  ∀ a ∈ c.acts.toList, ∀ b ∈ c.beats.toList, a.gateBeat = some b.id →
    ∀ last ∈ c.acts.toList.getLast?, .advanceAct last.id ∉ b.effects

namespace Outlook

def rounds (v : View) : Nat → Outlook
  | 0 => initial v
  | k + 1 => (rounds v k).round v

/-- Each of so many rounds learns something, and none after them does. -/
structure SettlesAt (v : View) (n : Nat) : Prop where
  larger : ∀ k < n, (rounds v k).size < (rounds v (k + 1)).size
  same : ∀ k, n ≤ k → rounds v k = explore v

/-- Every act that the later outlook reaches beyond the earlier one is declared. -/
def ReachesActs (v : View) (o o' : Outlook) : Prop :=
  ∀ j, o.furthestAct < j → j ≤ o'.furthestAct → ∃ a, v.catalog.acts.toList[j]? = some a

/-- The furthest act may be left, with a new gate beat that goes forward to the last act. -/
def Overshoots (v : View) (o : Outlook) : Prop :=
  ∃ a b last, v.catalog.acts.toList[o.furthestAct]? = some a ∧ o.gateMayHold v a = true ∧
    (v.catalog.nextAct? a.id).isSome = true ∧ o.freshGateBeat? v a = some b ∧
    v.catalog.acts.toList.getLast? = some last ∧ .advanceAct last.id ∈ b.effects

variable {v : View} {o o' o'' : Outlook}

/-! ### The rounds that exploring takes -/

theorem settle_rounds (v : View) (k n : Nat) : (rounds v k).settle v n = rounds v (k + n) := by
  induction n generalizing k with
  | zero => rfl
  | succ n ih =>
    rw [settle_succ, ← Nat.succ_add_eq_add_succ]
    exact ih (k + 1)

theorem explore_eq_rounds (v : View) : explore v = rounds v (v.catalog.knowable + 1) := by
  have h := settle_rounds v 0 (v.catalog.knowable + 1)
  rwa [Nat.zero_add] at h

theorem learns_rounds_succ (v : View) (k : Nat) : Learns v (rounds v k) (rounds v (k + 1)) :=
  learns_round _

theorem rounds_eq_of_fixed {k n : Nat} (h : rounds v (n + 1) = rounds v n) (hle : n ≤ k) :
    rounds v k = rounds v n := by
  induction k, hle using Nat.le_induction with
  | base => rfl
  | succ k _ ih =>
    show (rounds v k).round v = _
    rw [ih]
    exact h

/-- As long as every round learns something, each leaves a fact fewer to learn. -/
theorem unknown_rounds_add_le {n : Nat} (h : ∀ k < n, rounds v (k + 1) ≠ rounds v k) :
    Learns.unknown v (rounds v n) + n ≤ Learns.unknown v (initial v) := by
  induction n with
  | zero => exact Nat.le_refl _
  | succ n ih =>
    have hbefore := ih fun k hk => h k (by omega)
    rcases (learns_rounds_succ v n).eq_or_lt with heq | ⟨-, hlt⟩
    · exact absurd heq (h n n.lt_succ_self)
    · omega

theorem exists_round_fixed (v : View) :
    ∃ n, n ≤ v.catalog.knowable ∧ rounds v (n + 1) = rounds v n := by
  by_contra hno
  have hlearns : ∀ k < v.catalog.knowable + 1, rounds v (k + 1) ≠ rounds v k :=
    fun k hk heq => hno ⟨k, by omega, heq⟩
  have hleft := unknown_rounds_add_le hlearns
  have hle : Learns.unknown v (initial v) ≤ v.learnable.length := List.countP_le_length
  have := v.length_learnable_le
  omega

theorem exists_settlesAt (v : View) : ∃ n ≤ v.catalog.knowable, SettlesAt v n := by
  have hfixed := exists_round_fixed v
  obtain ⟨hle, heq⟩ := Nat.find_spec hfixed
  refine ⟨Nat.find hfixed, hle, fun k hk => ?_, fun k hk => ?_⟩
  · rcases (learns_rounds_succ v k).eq_or_lt with hsame | ⟨hlt, -⟩
    · exact absurd ⟨by omega, hsame⟩ (Nat.find_min hfixed hk)
    · exact hlt
  · have hlast := rounds_eq_of_fixed heq (hle.trans (Nat.le_succ _))
    rw [explore_eq_rounds, rounds_eq_of_fixed heq hk, hlast]

/-! ### How far acts are reached -/

theorem ReachesActs.trans (h : ReachesActs v o o') (h' : ReachesActs v o' o'') :
    ReachesActs v o o'' := by
  intro j hj hle
  by_cases hbetween : j ≤ o'.furthestAct
  · exact h j hj hbetween
  · exact h' j (by omega) hle

theorem reachesActs_iff (h : o.furthestAct < o'.furthestAct) :
    ReachesActs v o o' ↔ o'.furthestAct < v.catalog.acts.size := by
  refine ⟨fun hreaches => ?_, fun hlt j _ hle => ?_⟩
  · obtain ⟨a, ha⟩ := hreaches _ h (Nat.le_refl _)
    exact (List.getElem?_eq_some_iff.1 ha).1
  · exact ⟨_, List.getElem?_eq_getElem (Nat.lt_of_le_of_lt hle hlt)⟩

theorem furthestAct_absorb (o : Outlook) (e : Effect) :
    (o.absorb v e).furthestAct = e.reach v.catalog o.furthestAct := by
  obtain ⟨a, rfl⟩ | hact := e.eq_advanceAct_or_ne
  · unfold Effect.reach
    dsimp only
    cases hi : v.catalog.acts.position? a with
    | none => rw [absorb_advanceAct_of_none hi]
    | some i => exact Unfolds.furthest_absorb_advanceAct hi
  · rw [(absorb_frame hact).1, Effect.reach_of_ne_advanceAct hact]

theorem furthestAct_absorbAll (o : Outlook) (es : List Effect) :
    (o.absorbAll v es).furthestAct = es.foldl (Effect.reach v.catalog) o.furthestAct := by
  induction es generalizing o with
  | nil => rfl
  | cons e es ih =>
    rw [List.foldl_cons, ← furthestAct_absorb]
    exact ih _

theorem reachesActs_absorbAll (o : Outlook) (es : List Effect) :
    ReachesActs v o (o.absorbAll v es) := by
  intro j hj hle
  rw [furthestAct_absorbAll, Effect.le_foldl_reach_iff] at hle
  obtain hle | ⟨a, k, -, hk, hle⟩ := hle
  · omega
  · have hlt := Table.lt_size_of_position? hk
    exact ⟨_, List.getElem?_eq_getElem (Nat.lt_of_le_of_lt hle hlt)⟩

theorem reachesActs_beforeGates (o : Outlook) : ReachesActs v o (o.beforeGates v) := by
  have hran : ReachesActs v o (((o.walkExits v).collectItems v).runInteractions v) :=
    reachesActs_absorbAll ((o.walkExits v).collectItems v) _
  exact hran.trans (reachesActs_absorbAll _ _)

end Outlook

theorem Effect.le_foldl_reach_succ_iff {c : Catalog} {i : Nat} {last : Act} {es : List Effect}
    (hlast : c.acts.toList.getLast? = some last) (hi : i + 1 < c.acts.size) :
    c.acts.size ≤ es.foldl (Effect.reach c) i + 1 ↔ .advanceAct last.id ∈ es := by
  have hplace : c.acts.position? last.id = some (c.acts.size - 1) := by
    rw [List.getLast?_eq_getElem?] at hlast
    exact Catalog.position?_id hlast
  have hreach : c.acts.size - 1 ≤ es.foldl (Effect.reach c) i ↔ _ := Effect.le_foldl_reach_iff
  constructor
  · intro hle
    obtain hle | ⟨a, k, hmem, hk, hle⟩ := hreach.1 (by omega)
    · omega
    · have hlt := Table.lt_size_of_position? hk
      obtain rfl : k = c.acts.size - 1 := by omega
      rw [Catalog.position?_eq_some_iff] at hk hplace
      obtain rfl : last.id = a := Option.some.inj (hplace.symm.trans hk)
      exact hmem
  · intro hmem
    have := hreach.2 (.inr ⟨_, _, hmem, hplace, Nat.le_refl _⟩)
    omega

namespace Outlook

variable {v : View} {o : Outlook}

/-- Leaving an act opens the act after the furthest that its gate beat went forward to. -/
theorem furthestAct_passGates {a : Act} (ha : v.catalog.acts.toList[o.furthestAct]? = some a)
    (hmay : o.gateMayHold v a = true) (hnext : (v.catalog.nextAct? a.id).isSome = true) :
    (o.passGates v).furthestAct = (o.throughGate v a).furthestAct + 1 := by
  have hlt := furthest_throughGate_lt (v := v) (List.getElem?_eq_some_iff.1 ha).1 a
  rw [passGates_of_gateMayHold ha hmay hnext]
  exact (Unfolds.openActs (.inr hlt)).2

/-- The gates open declared acts only, unless the gate beat overshoots. -/
theorem reachesActs_passGates_iff (o : Outlook) :
    ReachesActs v o (o.passGates v) ↔ ¬o.Overshoots v := by
  by_cases hopen : ∃ a, v.catalog.acts.toList[o.furthestAct]? = some a ∧
      o.gateMayHold v a = true ∧ (v.catalog.nextAct? a.id).isSome = true
  · obtain ⟨a, ha, hmay, hnext⟩ := hopen
    have hroom : o.furthestAct + 1 < v.catalog.acts.size := by
      unfold Catalog.nextAct? at hnext
      rw [Catalog.position?_id ha] at hnext
      exact (List.getElem?_eq_some_iff.1 (Option.some_get hnext).symm).1
    -- The next act is declared, so only the gate beat can lead past the last one.
    have hforward := (learns_throughGate (v := v) o a).furthestAct_le
    rw [reachesActs_iff (by rw [furthestAct_passGates ha hmay hnext]; omega),
      furthestAct_passGates ha hmay hnext]
    unfold throughGate
    cases hbeat : o.freshGateBeat? v a with
    | none =>
      refine iff_of_true hroom ?_
      rintro ⟨a', b, last, ha', -, -, hb, -⟩
      obtain rfl : a = a' := Option.some.inj (ha.symm.trans ha')
      rw [hbeat] at hb
      cases hb
    | some b =>
      obtain ⟨last, hlast⟩ : ∃ last, v.catalog.acts.toList.getLast? = some last := by
        cases hacts : v.catalog.acts.toList.getLast? with
        | none =>
          rw [List.getLast?_eq_none_iff.1 hacts] at ha
          cases ha
        | some last => exact ⟨last, rfl⟩
      have hend : v.catalog.acts.size ≤ (o.absorbAll v b.effects).furthestAct + 1 ↔
          .advanceAct last.id ∈ b.effects := by
        rw [furthestAct_absorbAll]
        exact Effect.le_foldl_reach_succ_iff hlast hroom
      show (o.absorbAll v b.effects).furthestAct + 1 < _ ↔ _
      rw [← not_le, hend, not_iff_not]
      refine ⟨fun hmem => ⟨a, b, last, ha, hmay, hnext, hbeat, hlast, hmem⟩, ?_⟩
      rintro ⟨a', b', last', ha', -, -, hb, hl, hmem⟩
      obtain rfl : a = a' := Option.some.inj (ha.symm.trans ha')
      obtain rfl : b = b' := Option.some.inj (hbeat.symm.trans hb)
      obtain rfl : last = last' := Option.some.inj (hlast.symm.trans hl)
      exact hmem
  · rw [passGates_eq_self hopen]
    refine iff_of_true (fun j hj hle => by omega) ?_
    rintro ⟨a, b, last, ha, hmay, hnext, -⟩
    exact hopen ⟨a, ha, hmay, hnext⟩

theorem reachesActs_rounds_iff (v : View) (k : Nat) :
    ReachesActs v (rounds v k) (rounds v (k + 1)) ↔ ¬((rounds v k).beforeGates v).Overshoots v := by
  rw [← reachesActs_passGates_iff]
  have hbefore := reachesActs_beforeGates (v := v) (rounds v k)
  have hforward := (learns_beforeGates (v := v) (rounds v k)).furthestAct_le
  exact ⟨fun h j hj hle => h j (by omega) hle, hbefore.trans⟩

theorem not_overshoots (h : v.catalog.GatesStopShort) (o : Outlook) : ¬o.Overshoots v := by
  rintro ⟨a, b, last, ha, -, -, hb, hlast, hmem⟩
  obtain ⟨hb, -⟩ := Option.filter_eq_some_iff.1 hb
  obtain ⟨id, hgate, hget⟩ := Option.bind_eq_some_iff.1 hb
  obtain rfl : b.id = id := Table.id_of_get? hget
  exact h a (List.mem_of_getElem? ha) b (Table.mem_of_get? hget) hgate last hlast hmem

/-- Exploring ends after no more rounds than there is to know, with an outlook that no stage
changes, and forgets nothing on the way. A round reaches declared acts only, exactly if the gates do
not overshoot. -/
theorem explore_fixpoint (v : View) :
    (∃ n ≤ v.catalog.knowable, SettlesAt v n) ∧
    (∀ k f, (rounds v k).knows f = true → (rounds v (k + 1)).knows f = true) ∧
    Closed v (explore v) ∧
    (∀ k, ReachesActs v (rounds v k) (rounds v (k + 1)) ↔
      ¬((rounds v k).beforeGates v).Overshoots v) ∧
    (v.catalog.GatesStopShort → ∀ k, ReachesActs v (rounds v k) (rounds v (k + 1))) :=
  ⟨exists_settlesAt v, fun k _ hf => (learns_rounds_succ v k).knows hf, explore_closed v,
    reachesActs_rounds_iff v, fun h k => (reachesActs_rounds_iff v k).2 (not_overshoots h _)⟩

end Outlook

/-- A beacon in a tower that is within bounds from the dusk on. The noon does not end, for its key
is nowhere. The beats at the gates of the dawn and of the dusk go forward themselves. -/
def beaconDoc (act : EntityId) : WorldDocument where
  world := some { title := "Beacon" }
  start := some { location := "quay" }
  locations := [{ id := "quay", name := "Quay" }, { id := "tower", name := "Tower" }]
  items := [{ id := "key", name := "key" }]
  exits := [{ id := "stair", origin := "quay", destination := "tower", direction := some "up" }]
  beats := [
    { id := "bell", effects := [.advanceAct "noon"] },
    { id := "lamp", effects := [.advanceAct act] }]
  acts := [
    { id := "dawn", locations := ["quay"], gate := some .always, gateBeat := some "bell" },
    { id := "noon", gate := some (.atom (.hasItem "key")) },
    { id := "dusk", locations := ["tower"], gate := some .always, gateBeat := some "lamp" },
    { id := "night" }]
  victory := [{ id := "lit", condition := .atom (.at "tower") }]

def beacon (act : EntityId) : Catalog := .draft (beaconDoc act)

def beaconAtDawn (act : EntityId) : View := ⟨beacon act, .initial (beacon act)⟩

/-- Where the lamp stays in the dusk, exploring reaches the acts of the beacon and stops. -/
theorem beacon_within_acts :
    (beacon "dusk").Accepted ∧
      (∃ n ≤ (beacon "dusk").knowable, Outlook.SettlesAt (beaconAtDawn "dusk") n) ∧
      ∀ k, Outlook.ReachesActs (beaconAtDawn "dusk") (.rounds (beaconAtDawn "dusk") k)
        (.rounds (beaconAtDawn "dusk") (k + 1)) := by
  have hgates : (beacon "dusk").GatesStopShort := by
    unfold Catalog.GatesStopShort
    decide
  obtain ⟨hsettles, -, -, -, hreaches⟩ := Outlook.explore_fixpoint (beaconAtDawn "dusk")
  exact ⟨⟨_, Catalog.ofDocument_eq_ok_iff.2 ⟨by decide, rfl⟩⟩, hsettles, hreaches hgates⟩

/-- Where the lamp goes forward to the night, the second round reaches an act after the night. The
bell has taken the first past the noon, so that the tower seems to be within reach. -/
theorem beacon_past_night :
    (beaconAtDawn "night").canWin = true ∧
      ¬∀ (c : Catalog) (s : State), c.Accepted → ∀ k,
        Outlook.ReachesActs ⟨c, s⟩ (.rounds ⟨c, s⟩ k) (.rounds ⟨c, s⟩ (k + 1)) := by
  refine ⟨by decide +kernel, fun h => ?_⟩
  have hc : (beacon "night").Accepted := ⟨_, Catalog.ofDocument_eq_ok_iff.2 ⟨by decide, rfl⟩⟩
  have hreaches := h (beacon "night") (.initial (beacon "night")) hc 1
  obtain ⟨a, ha⟩ := hreaches 4 (by decide +kernel) (by decide +kernel)
  have hend : (beacon "night").acts.toList[4]? = none := rfl
  cases hend.symm.trans ha

end Storyworld
