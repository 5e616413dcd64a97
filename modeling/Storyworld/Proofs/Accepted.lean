import Storyworld.Integrity

/-!
# Accepted worlds

Nothing is wrong with a catalog that loading gives: every pass of the check comes back empty
(`Accepted.passes`). The lemmas after it say what each pass has made sure of.
-/

namespace Storyworld

/-- What an effect names is declared, and it describes only what has a description. -/
structure Effect.Sound (c : Catalog) (e : Effect) : Prop where
  declared : ∀ key ∈ e.references, c.contains key = true
  describable : ∀ key text, e = .describe key text → key.kind.overridable = true

namespace Catalog

variable {c : Catalog} {source : Source}

/-- No pass of the check finds anything wrong. -/
structure Passes (c : Catalog) : Prop where
  start : c.checkStart = []
  items : ∀ d ∈ c.items.toList, c.checkItem d = []
  characters : ∀ d ∈ c.characters.toList, c.checkCharacter d = []
  exits : ∀ d ∈ c.exits.toList, c.checkExit d = []
  interactions : ∀ d ∈ c.interactions.toList, c.checkInteraction d = []
  beats : ∀ d ∈ c.beats.toList, c.checkBeat d = []
  spokes : ∀ d ∈ c.spokes.toList, c.checkSpoke d = []
  acts : c.checkActs [] c.acts.toList = []
  victory : ∀ d ∈ c.victory.toList,
    c.checkCondition (.definition (.victory d.id)) "condition" d.condition = []
  migrations : ∀ r ∈ c.migrations, c.checkMigration r = []

theorem passes_of_ofDocument {doc : WorldDocument} (h : ofDocument doc = .ok c) : c.Passes := by
  obtain ⟨hproblems, rfl⟩ := ofDocument_eq_ok_iff.1 h
  have hcheck := (List.append_eq_nil_iff.1 hproblems).2
  simp only [check, List.append_eq_nil_iff, List.flatMap_eq_nil_iff] at hcheck
  obtain ⟨⟨⟨⟨⟨⟨⟨⟨⟨hstart, hitems⟩, hcharacters⟩, hexits⟩, hinteractions⟩, hbeats⟩, hspokes⟩, hacts⟩,
    hvictory⟩, hmigrations⟩ := hcheck
  exact ⟨hstart, hitems, hcharacters, hexits, hinteractions, hbeats, hspokes, hacts, hvictory,
    hmigrations⟩

theorem Accepted.passes (h : c.Accepted) : c.Passes := by
  obtain ⟨doc, hdoc⟩ := h
  exact passes_of_ofDocument hdoc

/-! ### Keys -/

theorem contains_of_checkKey {field : String} {key : EntityKey}
    (h : c.checkKey source field key = []) : c.contains key = true := by
  unfold checkKey at h
  split at h
  · assumption
  · cases h

theorem contains_of_checkKey? {field : String} {key? : Option EntityKey} {key : EntityKey}
    (h : c.checkKey? source field key? = []) (hkey : key? = some key) : c.contains key = true := by
  subst hkey
  exact contains_of_checkKey (List.flatMap_eq_nil_iff.1 h key (.head _))

/-! ### The start -/

/-- What the check of a start that names its location makes sure of. -/
structure SoundStart (c : Catalog) : Prop where
  location : c.contains (.location c.start.location) = true
  act : ∀ a ∈ c.start.act, c.contains (.act a) = true
  inventory : ∀ i ∈ c.start.inventory, c.contains (.item i) = true
  /-- What the player starts with is declared to be nowhere else. -/
  free : ∀ i ∈ c.start.inventory, ∀ d, c.items.get? i = some d →
    d.location = none ∧ d.holder = none
  /-- The list of the first act is all that is looked at; what the act excludes is not. -/
  listed : ∀ a, c.acts.get? c.initialAct = some a → c.start.location ∈ a.locations

theorem Accepted.soundStart (h : c.Accepted) (hstart : c.start.location ≠ "") :
    c.SoundStart := by
  have h := h.passes.start
  unfold checkStart at h
  rw [if_neg (by simpa using hstart)] at h
  simp only [List.append_eq_nil_iff, List.flatMap_eq_nil_iff] at h
  obtain ⟨⟨⟨hlocation, hact⟩, hinventory⟩, hlisted⟩ := h
  refine ⟨contains_of_checkKey hlocation, fun a ha => ?_,
    fun i hi => contains_of_checkKey (hinventory i hi).1, fun i hi d hd => ?_, fun a ha => ?_⟩
  · exact contains_of_checkKey? hact (by rw [Option.mem_def.1 ha]; rfl)
  · have hfree := (hinventory i hi).2
    rw [hd] at hfree
    simpa [Option.filter] using hfree
  · rw [ha] at hlisted
    simpa using hlisted

/-- A session starts in the act that the start names, or else in the first that is declared. -/
theorem initialAct_named_or_first {doc : WorldDocument} (h : checkSections doc = []) :
    (draft doc).start.act = some (draft doc).initialAct ∨
      ∃ d ∈ (draft doc).acts.toList, d.id = (draft doc).initialAct := by
  have hinitial : (draft doc).initialAct =
      ((draft doc).start.act <|> (Table.firsts doc.acts).head?.map (·.id)).getD "" := rfl
  have hnamed : (draft doc).start.act = doc.start.bind (·.act) := by
    cases hstart : doc.start <;> simp [draft, hstart]
  cases hact : (draft doc).start.act with
  | some a =>
    rw [hinitial, hact]
    exact .inl rfl
  | none =>
    cases hacts : doc.acts with
    | nil =>
      rw [hact] at hnamed
      have hlacks : lacksActs doc = true := by simp [lacksActs, ← hnamed, hacts]
      simp [checkSections, hlacks] at h
    | cons d ds =>
      rw [hinitial, hact, hacts]
      have hfirst : d ∈ Table.firsts doc.acts := by
        rw [hacts]
        exact .head _
      exact .inr ⟨d, hfirst, rfl⟩

theorem Accepted.initialAct_declared (h : c.Accepted) (hstart : c.start.location ≠ "") :
    c.contains (.act c.initialAct) = true := by
  have hnamed := (h.soundStart hstart).act
  obtain ⟨doc, hdoc⟩ := h
  obtain ⟨hproblems, rfl⟩ := ofDocument_eq_ok_iff.1 hdoc
  rcases initialAct_named_or_first (List.append_eq_nil_iff.1 hproblems).1 with hact | ⟨d, hd, hid⟩
  · exact hnamed _ hact
  · rw [← hid]
    exact Table.contains_of_mem hd

/-! ### Effects -/

/-- The effects that authors list: those of interactions and those of beats. -/
inductive Authors (c : Catalog) (e : Effect) : Prop
  | interaction {d : Interaction} (hd : d ∈ c.interactions.toList) (he : e ∈ d.effects)
  | beat {b : Beat} (hb : b ∈ c.beats.toList) (he : e ∈ b.effects)

/-- An effect that takes no critical item away parts the player from none. -/
theorem parts?_ne_of_safe {e : Effect} (h : c.criticalRemoval? e = none) {i : EntityId}
    (hcrit : c.isCritical i = true) : e.parts? ≠ some i := by
  intro hparts
  unfold criticalRemoval? at h
  rw [hparts] at h
  simp [Option.filter, hcrit] at h

theorem sound_of_checkEffect {e : Effect} (h : c.checkEffect source e = []) : e.Sound c := by
  simp only [checkEffect, List.append_eq_nil_iff, List.flatMap_eq_nil_iff] at h
  obtain ⟨⟨hreferences, -⟩, hdescribed⟩ := h
  refine ⟨fun key hkey => contains_of_checkKey (hreferences key hkey), ?_⟩
  rintro key text rfl
  simpa [checkDescribed] using hdescribed

theorem criticalRemoval?_of_checkEffect {e : Effect} (h : c.checkEffect source e = []) :
    c.criticalRemoval? e = none := by
  have h := (List.append_eq_nil_iff.1 (List.append_eq_nil_iff.1 h).1).2
  simpa using h

theorem Passes.effect (h : c.Passes) {e : Effect} (he : c.Authors e) :
    ∃ source, c.checkEffect source e = [] := by
  cases he with
  | interaction hd he =>
    have h := h.interactions _ hd
    simp only [checkInteraction, List.append_eq_nil_iff, List.flatMap_eq_nil_iff] at h
    exact ⟨_, h.1.2 e he⟩
  | beat hb he =>
    have h := (List.append_eq_nil_iff.1 (h.beats _ hb)).2
    exact ⟨_, List.flatMap_eq_nil_iff.1 h e he⟩

theorem Accepted.effect_sound (h : c.Accepted) {e : Effect} (he : c.Authors e) : e.Sound c := by
  obtain ⟨_, hcheck⟩ := h.passes.effect he
  exact sound_of_checkEffect hcheck

/-- No authored effect takes a critical item away. -/
theorem Accepted.effect_safe (h : c.Accepted) {e : Effect} (he : c.Authors e) :
    c.criticalRemoval? e = none := by
  obtain ⟨_, hcheck⟩ := h.passes.effect he
  exact criticalRemoval?_of_checkEffect hcheck

theorem Accepted.interaction_sound (h : c.Accepted) {d : Interaction}
    (hd : d ∈ c.interactions.toList) {e : Effect} (he : e ∈ d.effects) : e.Sound c :=
  h.effect_sound (.interaction hd he)

theorem Accepted.beat_sound (h : c.Accepted) {b : Beat} (hb : b ∈ c.beats.toList) {e : Effect}
    (he : e ∈ b.effects) : e.Sound c :=
  h.effect_sound (.beat hb he)

theorem Accepted.beat_safe (h : c.Accepted) {b : Beat} (hb : b ∈ c.beats.toList) {e : Effect}
    (he : e ∈ b.effects) : c.criticalRemoval? e = none :=
  h.effect_safe (.beat hb he)

/-! ### Exits -/

theorem Accepted.exit_declared (h : c.Accepted) {d : Exit} (hd : d ∈ c.exits.toList) :
    c.contains (.location d.destination) = true := by
  have h := h.passes.exits d hd
  simp only [checkExit, List.append_eq_nil_iff] at h
  exact contains_of_checkKey h.1.1.1.2

/-! ### Interactions -/

theorem Accepted.use_item (h : c.Accepted) {d : Interaction} (hd : d ∈ c.interactions.toList)
    (hkind : d.kind = .use) : ∃ i, d.item = some i ∧ c.contains (.item i) = true := by
  have h := h.passes.interactions d hd
  simp only [checkInteraction, List.append_eq_nil_iff] at h
  obtain ⟨⟨⟨⟨-, hitem⟩, -⟩, -⟩, hfault⟩ := h
  cases hi : d.item with
  | none => simp [kindFault?, hkind, hi] at hfault
  | some i => exact ⟨i, rfl, contains_of_checkKey? hitem (by rw [hi]; rfl)⟩

/-! ### Items -/

theorem Accepted.one_home (h : c.Accepted) {d : Item} (hd : d ∈ c.items.toList) :
    d.location = none ∨ d.holder = none := by
  have h := (List.append_eq_nil_iff.1 (h.passes.items d hd)).2
  cases hl : d.location with
  | none => exact .inl rfl
  | some l =>
    cases hh : d.holder with
    | none => exact .inr rfl
    | some p => simp [hl, hh] at h

/-- The player carries at first what the start lists. -/
theorem initialPlacement_eq_carried {i : EntityId} :
    c.initialPlacement i = .carried ↔ i ∈ c.start.inventory := by
  unfold initialPlacement
  split
  · rename_i hi
    exact iff_of_true rfl (List.contains_iff_mem.1 hi)
  · rename_i hi
    refine iff_of_false (fun h => ?_) fun hmem => hi (List.contains_iff_mem.2 hmem)
    split at h
    · cases h
    · split at h <;> cases h

/-- The home of an item at its authored placement, if that is not the inventory, is the authored
one. -/
theorem Accepted.authored_home_of_not_mem (h : c.Accepted) {i : EntityId} {d : Item}
    (hd : c.items.get? i = some d) (hi : i ∉ c.start.inventory) :
    d.location = (c.initialPlacement i).location? ∧ d.holder = (c.initialPlacement i).holder? := by
  have hone := h.one_home (Table.mem_of_get? hd)
  unfold initialPlacement
  rw [if_neg (by simpa using hi), hd]
  cases hl : d.location with
  | some l =>
    have hholder : d.holder = none := by simpa [hl] using hone
    simp [hl, hholder, Placement.location?, Placement.holder?]
  | none =>
    cases hh : d.holder with
    | some p => simp [hl, hh, Placement.location?, Placement.holder?]
    | none => simp [hl, hh, Placement.location?, Placement.holder?]

theorem Accepted.authored_home (h : c.Accepted) (hstart : c.start.location ≠ "") {i : EntityId}
    {d : Item} (hd : c.items.get? i = some d) :
    d.location = (c.initialPlacement i).location? ∧ d.holder = (c.initialPlacement i).holder? := by
  by_cases hi : i ∈ c.start.inventory
  · rw [initialPlacement_eq_carried.2 hi]
    exact (h.soundStart hstart).free i hi d hd
  · exact h.authored_home_of_not_mem hd hi

/-! ### Spokes -/

theorem Accepted.spoke_atoms (h : c.Accepted) {d : Spoke} (hd : d ∈ c.spokes.toList) {a : Atom}
    (ha : a ∈ d.condition.atoms) : a.spoke? = none := by
  have h := h.passes.spokes d hd
  unfold checkSpoke at h
  have h := (List.append_eq_nil_iff.1 (List.append_eq_nil_iff.1 h).1).2
  split at h
  · rename_i hempty
    have hspokes : d.condition.spokes = [] := by simpa using hempty
    unfold Condition.spokes at hspokes
    exact List.filterMap_eq_nil_iff.1 hspokes a ha
  · cases h

/-! ### Acts -/

theorem unshared_of_checkActs {seen : List EntityId} {ds : List Act}
    (h : c.checkActs seen ds = []) :
    (∀ d ∈ ds, ∀ b ∈ d.gateBeat, b ∉ seen) ∧
      ∀ d ∈ ds, ∀ e ∈ ds, ∀ b ∈ d.gateBeat, b ∈ e.gateBeat → d = e := by
  induction ds generalizing seen with
  | nil => exact ⟨fun _ hd => (nomatch hd), fun _ hd => (nomatch hd)⟩
  | cons a as ih =>
    obtain ⟨ha, has⟩ := List.append_eq_nil_iff.1 h
    obtain ⟨hseen, has⟩ := ih has
    have hfirst : ∀ b ∈ a.gateBeat, b ∉ seen := by
      intro b hb hmem
      have hgate := (List.append_eq_nil_iff.1 ha).2
      rw [List.flatMap_eq_nil_iff] at hgate
      have hshared := (List.append_eq_nil_iff.1 (hgate b (Option.mem_toList.2 hb))).2
      simp [hmem] at hshared
    -- What the head is left through is noted before the tail is checked.
    have hapart : ∀ d ∈ as, ∀ b ∈ a.gateBeat, b ∉ d.gateBeat := fun d hd b hb hmem =>
      hseen d hd b hmem (List.mem_append_left _ (Option.mem_toList.2 hb))
    constructor
    · intro d hd b hb
      rcases List.mem_cons.1 hd with rfl | hd
      · exact hfirst b hb
      · exact fun hmem => hseen d hd b hb (List.mem_append_right _ hmem)
    · intro d hd e he b hbd hbe
      rcases List.mem_cons.1 hd with hda | hda <;> rcases List.mem_cons.1 he with hea | hea
      · rw [hda, hea]
      · exact absurd hbe (hapart e hea b (hda ▸ hbd))
      · exact absurd hbd (hapart d hda b (hea ▸ hbe))
      · exact has d hda e hea b hbd hbe

/-- No two acts are left through the same beat. -/
theorem Accepted.gateBeat_unshared (h : c.Accepted) {d e : Act} (hd : d ∈ c.acts.toList)
    (he : e ∈ c.acts.toList) {b : EntityId} (hbd : d.gateBeat = some b)
    (hbe : e.gateBeat = some b) : d = e :=
  (unshared_of_checkActs h.passes.acts).2 d hd e he b hbd hbe

end Catalog
end Storyworld
