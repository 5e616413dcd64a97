import Storyworld.Proofs.Progress
import Storyworld.Proofs.Resumption

/-!
# One-off content

Whatever intent an interaction comes with, if it runs once it has not run before
(`Line.unused_of_ran`), and the turn that runs it marks it, which no other turn does
(`Line.used_play`). A turn that is not committed runs nothing and marks nothing. A `Story` takes
turns, and saves and resumes between them, which keeps the marks; so in all of its turns together an
interaction that runs once does so at most once, and a victory is reported at most once.
-/

namespace Storyworld

/-- The interaction that a turn runs, if it is committed. -/
def Line.ran? (c : Catalog) (l : Line) (s : State) : Option EntityId :=
  (l.landing? c s).bind (·.1.interaction)

/-- A turn of a story: the line, and the state before it. -/
structure Taken where
  line : Line
  before : State

namespace Taken

variable (c : Catalog) (x : Taken)

def played : Played := x.line.play c x.before

def ran? : Option EntityId := x.line.ran? c x.before

/-- What the intent of a committed turn does by itself. -/
def own : List Effect :=
  match x.line.landing? c x.before with
  | some (p, _) => (View.mk c x.before.advanceTurn).ownEffects p.intent
  | none => []

/-- What the interaction that a turn runs does. -/
def lent : List Effect :=
  match (x.ran? c).bind c.interactions.get? with
  | some d => d.effects
  | none => []

end Taken

/-- A story goes on from one state to another, by turns and by saving the state and resuming from
the text of the save. Its turns are those that have led to the state: who goes back to an older save
is where the story was when it was written. -/
inductive Story (c : Catalog) (s : State) : List Taken → State → Prop
  | start : Story c s [] s
  | turn {xs : List Taken} {t : State} (h : Story c s xs t) (l : Line) :
      Story c s (xs ++ [⟨l, t⟩]) (l.play c t).state
  | resumed {xs : List Taken} {t u : State} (h : Story c s xs t) {id : SessionId} {now : Instant}
      {save : Save} (hread : Save.parse? (Save.capture id now c t).text = some save)
      (hrestored : save.restore c = .ok u) : Story c s xs u

/-! ### The mark -/

section
variable {c : Catalog} {s : State} {d : Interaction}

theorem State.mem_used_markRun (hd : d ∈ c.interactions.toList) (honce : d.repeatable = false)
    (x : Option EntityId) :
    d.id ∈ (s.markRun c x).usedInteractions ↔ d.id ∈ s.usedInteractions ∨ x = some d.id := by
  unfold markRun
  split
  · rename_i e he
    obtain ⟨he, -⟩ := Option.filter_eq_some_iff.1 he
    obtain ⟨id, rfl, he⟩ := Option.bind_eq_some_iff.1 he
    obtain rfl : e.id = id := Table.id_of_get? he
    rw [Option.some_inj, or_comm, eq_comm (a := e.id)]
    exact SortedSet.mem_insert
  · rename_i hnone
    have hother : x ≠ some d.id := by
      rintro rfl
      have hget : c.interactions.get? d.id = some d := Table.get?_eq_some_iff.2 ⟨hd, rfl⟩
      simp [hget, honce] at hnone
    exact ⟨.inl, fun h => h.resolve_right hother⟩

/-- Landing a plan marks the interaction that goes with it, and nothing else. -/
theorem Landing.used {p : Plan} {done : Commit} {acted beaten passed : State}
    (h : Landing c s p done acted beaten passed) (hd : d ∈ c.interactions.toList)
    (honce : d.repeatable = false) :
    d.id ∈ done.state.usedInteractions ↔
      d.id ∈ s.usedInteractions ∨ p.interaction = some d.id := by
  have hacted := h.marked.1 ⟨rfl, rfl⟩
  have hpassed := h.marked.2 ⟨rfl, rfl⟩
  obtain ⟨_, hwon⟩ := State.exists_recordVictory_eq h.win
  rw [← hacted.used, ← State.mem_used_markRun hd honce, ← hpassed.used, hwon]

/-- After a turn the interactions marked that run once are those marked before and the one that the
turn ran. -/
theorem Line.used_play (l : Line) (hd : d ∈ c.interactions.toList) (honce : d.repeatable = false) :
    d.id ∈ (l.play c s).state.usedInteractions ↔
      d.id ∈ s.usedInteractions ∨ l.ran? c s = some d.id := by
  unfold ran?
  cases hl : l.landing? c s with
  | none =>
    rw [(Line.play_of_none hl).1]
    simp [State.advanceTurn]
  | some x =>
    obtain ⟨_, _, _, hstages⟩ := (Line.lands hl).stages
    rw [(Line.play_of_some hl).1]
    exact hstages.used hd honce

theorem Line.unused_of_ran {l : Line} (hd : d ∈ c.interactions.toList)
    (honce : d.repeatable = false) (h : l.ran? c s = some d.id) : d.id ∉ s.usedInteractions := by
  obtain ⟨⟨p, done⟩, hl, hruns⟩ := Option.bind_eq_some_iff.1 h
  have hget : p.interaction.bind c.interactions.get? = some d := by
    rw [hruns]
    exact Table.get?_eq_some_iff.2 ⟨hd, rfl⟩
  have hpasses := (Line.lands hl).approved.interaction hget
  obtain ⟨-, -, hunspent⟩ := View.ready_of_checkInteraction hpasses
  have hunmarked : s.usedInteractions.contains d.id = false := by
    simpa [View.spent, honce, State.advanceTurn] using hunspent
  simp [SortedSet.mem_iff_contains, hunmarked]

/-- What a turn commits is what its intent does by itself, and then what the interaction does that
it runs. -/
theorem Taken.effects_played (c : Catalog) (x : Taken) :
    (x.played c).effects = x.own c ++ x.lent c := by
  unfold played own lent ran? Line.ran?
  cases hl : x.line.landing? c x.before with
  | none => exact Line.effects_of_none hl
  | some y =>
    obtain ⟨p, done⟩ := y
    obtain ⟨i, rfl⟩ := (Line.lands hl).planned
    rw [Line.effects_of_some hl]
    obtain ⟨hintent, ⟨-, heffects, hruns⟩ | ⟨d, -, heffects, hget⟩⟩ :=
      (View.mk c x.before.advanceTurn).plan_cases i
    · simp [hintent, heffects, hruns]
    · rw [Option.bind_some]
      dsimp only at hget ⊢
      rw [hget, hintent, heffects]

end

/-! ### Stories -/

namespace Story

variable {c : Catalog} {s t : State} {xs : List Taken}

/-- Of the turns that led from one state to another, one has run an interaction that runs once if it
is marked in the second state and not in the first, and otherwise none has. -/
theorem count_ran (h : Story c s xs t) {d : Interaction} (hd : d ∈ c.interactions.toList)
    (honce : d.repeatable = false) :
    (if d.id ∈ s.usedInteractions then 1 else 0) + (xs.filterMap (·.ran? c)).count d.id =
      if d.id ∈ t.usedInteractions then 1 else 0 := by
  induction h with
  | start => rfl
  | @turn xs m h l ih =>
    have hused := l.used_play (s := m) hd honce
    have hunused := Line.unused_of_ran (l := l) (s := m) hd honce
    rw [List.filterMap_append, List.count_append, ← Nat.add_assoc, ih]
    by_cases hran : l.ran? c m = some d.id
    · have hlast : [(⟨l, m⟩ : Taken)].filterMap (·.ran? c) = [d.id] := by simp [Taken.ran?, hran]
      rw [hlast, if_neg (hunused hran), if_pos (hused.2 (.inr hran)), List.count_singleton_self]
    · have hlast : d.id ∉ [(⟨l, m⟩ : Taken)].filterMap (·.ran? c) := by simp [Taken.ran?, hran]
      simp only [hused, hran, or_false, List.count_eq_zero_of_not_mem hlast, Nat.add_zero]
  | resumed h hread hrestored ih => rwa [Save.eq_of_restore hread hrestored]

/-- The victories that the turns report are the one on record, unless it was so at the start. -/
theorem victories (h : Story c s xs t) :
    s.victory.toList ++ xs.filterMap (fun x => (x.played c).victory?) = t.victory.toList := by
  induction h with
  | start => rw [List.filterMap_nil, List.append_nil]
  | @turn xs m h l ih =>
    rw [List.filterMap_append, ← List.append_assoc, ih, l.victory_play]
    have hlast : [(⟨l, m⟩ : Taken)].filterMap (fun x => (x.played c).victory?) =
        (l.play c m).victory?.toList := by
      cases hv : (l.play c m).victory? <;> simp [Taken.played, hv]
    rw [hlast]
  | resumed h hread hrestored ih => rwa [Save.eq_of_restore hread hrestored]

theorem victory_stays (h : Story c s xs t) {v : EntityId} (hv : s.victory = some v) :
    t.victory = some v ∧ ∀ x ∈ xs, (x.played c).victory? = none := by
  have hwon := h.victories
  rw [hv] at hwon
  cases ht : t.victory with
  | none => simp [ht] at hwon
  | some w =>
    rw [ht] at hwon
    obtain ⟨rfl, hnone⟩ := List.cons.inj hwon
    exact ⟨rfl, List.filterMap_eq_nil_iff.1 hnone⟩

end Story

/-- In all the turns of a story together an interaction that runs once is run by one turn if it is
marked in the end and by none if it is not, and what a turn commits besides what its intent does by
itself is what the interaction does that it runs. The victories that the turns report are the one on
record in the end; with that on record, the story goes on without another. -/
theorem one_off_runs_once {c : Catalog} {xs : List Taken} {s : State}
    (h : Story c (.initial c) xs s) :
    (∀ x ∈ xs, (x.played c).effects = x.own c ++ x.lent c) ∧
    (∀ d ∈ c.interactions.toList, d.repeatable = false →
      (xs.filterMap (·.ran? c)).count d.id = if d.id ∈ s.usedInteractions then 1 else 0) ∧
    xs.filterMap (fun x => (x.played c).victory?) = s.victory.toList ∧
    ∀ v ∈ s.victory, ∀ more t, Story c s more t →
      t.victory = some v ∧ ∀ x ∈ more, (x.played c).victory? = none := by
  refine ⟨fun x _ => x.effects_played c, fun d hd honce => ?_, h.victories,
    fun v hv more t hmore => hmore.victory_stays hv⟩
  have hcount := h.count_ran hd honce
  have hfresh : d.id ∉ (State.initial c).usedInteractions := SortedSet.not_mem_empty d.id
  rwa [if_neg hfresh, Nat.zero_add] at hcount

/-- A steeple in which the game is won by ringing the bell. -/
def steepleDoc : WorldDocument where
  world := some { title := "Steeple" }
  start := some { location := "steeple" }
  locations := [{ id := "steeple", name := "Steeple" }]
  items := [{ id := "bell", name := "bell", location := some "steeple", portable := false }]
  interactions := [
    { id := "peal", kind := .examine, triggers := ["ring the bell"], target := some (.item "bell"),
      effects := [.setFlag "rung" (.bool true)] }]
  acts := [{ id := "night", locations := ["steeple"] }]
  victory := [{ id := "heard", condition := .atom (.flag "rung") }]

def steeple : Catalog := .draft steepleDoc

/-- The bell is rung by its phrase; after a save neither the phrase nor a look at the bell rings it
again. -/
theorem bell_rings_once :
    let ring : Line := { input := "ring the bell" }
    let look : Line := { input := "examine bell" }
    let s := State.initial steeple
    let rung := (ring.play steeple s).state
    let seen := (look.play steeple rung).state
    let t := (ring.play steeple seen).state
    let xs : List Taken := [⟨ring, s⟩, ⟨look, rung⟩, ⟨ring, seen⟩]
    Story steeple s xs t ∧ xs.map (·.ran? steeple) = [some "peal", none, none] ∧
      (xs.filterMap (·.ran? steeple)).count "peal" =
        (if "peal" ∈ t.usedInteractions then 1 else 0) ∧
      "peal" ∈ t.usedInteractions ∧ t.victory = some "heard" ∧
      xs.filterMap (fun x => (x.played steeple).victory?) = ["heard"] := by
  intro ring look s rung seen t xs
  have hread : Save.parse? (Save.capture .zero .epoch steeple rung).text =
      some (Save.capture .zero .epoch steeple rung) := by
    rw [Save.parse?_capture Instant.isValid_epoch]
    exact if_pos (by decide +kernel)
  have hrestored : (Save.capture .zero .epoch steeple rung).restore steeple = .ok rung :=
    Save.restore_capture_eq_ok_iff.2
      ⟨rfl, State.dangling_eq_nil_iff.1 (by decide +kernel)⟩
  have hrung : Story steeple s [⟨ring, s⟩] rung := .resumed (.turn .start ring) hread hrestored
  have hstory : Story steeple s xs t := .turn (.turn hrung look) ring
  have hend : xs.map (·.ran? steeple) = [some "peal", none, none] ∧
      t.victory = some "heard" ∧ "peal" ∈ t.usedInteractions := by decide +kernel
  obtain ⟨hran, hwon, hmarked⟩ := hend
  obtain ⟨-, honce, hvictories, -⟩ := one_off_runs_once hstory
  have hpeal : ∃ d ∈ steeple.interactions.toList, d.repeatable = false ∧ d.id = "peal" := by decide
  obtain ⟨d, hd, hone, hid⟩ := hpeal
  have hcount := honce d hd hone
  rw [hid] at hcount
  rw [hwon] at hvictories
  exact ⟨hstory, hran, hcount, hmarked, hwon, hvictories⟩

end Storyworld
