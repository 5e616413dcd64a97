import Storyworld.Proofs.Accepted

/-!
# Closed worlds

A world is closed when all that its definitions name is declared, every flag that play reads is one
that an author sets, and no author takes a critical item away (`Catalog.Closed`). The check walks
the sections and the atoms of conditions; each lemma here reads what one of its passes found
nothing wrong with as the rule that the pass is there for. A document that loads has one definition
for every identifier of a kind, its catalog lists them all, and is closed
(`Catalog.closed_of_ofDocument`).
-/

namespace Storyworld

/-! ### Conditions -/

/-- The atom occurs in the condition, at whatever depth. -/
inductive Condition.Mentions (a : Atom) : Condition → Prop
  | atom : Mentions a (.atom a)
  | not {c : Condition} (h : Mentions a c) : Mentions a (.not c)
  | all {cs : List Condition} {c : Condition} (hc : c ∈ cs) (h : Mentions a c) :
      Mentions a (.all cs)
  | any {cs : List Condition} {c : Condition} (hc : c ∈ cs) (h : Mentions a c) :
      Mentions a (.any cs)

/-- The walk over a condition comes to every atom that occurs in it. -/
theorem Condition.Mentions.mem_atoms {a : Atom} {c : Condition} (h : c.Mentions a) :
    a ∈ c.atoms := by
  induction h with
  | atom => exact .head _
  | not _ ih => exact ih
  | all hc _ ih | any hc _ ih => exact mem_atomsOf hc ih

/-- The condition asks for the truth of the flag or for its value. -/
def Condition.Reads (f : String) (cond : Condition) : Prop :=
  cond.Mentions (.flag f) ∨ ∃ value, cond.Mentions (.flagEquals f value)

theorem Condition.Reads.mem_flagsRead {f : String} {cond : Condition} (h : cond.Reads f) :
    f ∈ cond.flagsRead := by
  rcases h with h | ⟨value, h⟩
  · exact List.mem_filterMap.2 ⟨_, h.mem_atoms, rfl⟩
  · exact List.mem_filterMap.2 ⟨_, h.mem_atoms, rfl⟩

/-- What a condition names is declared, and an author sets the flags that it reads. -/
structure Condition.Sound (c : Catalog) (cond : Condition) : Prop where
  declared : ∀ a, cond.Mentions a → ∀ key ∈ a.references, c.contains key = true
  written : ∀ f, cond.Reads f → ∃ value, c.Authors (.setFlag f value)

namespace Catalog

/-- The conditions that play evaluates. The trigger of a gate beat is not among them. -/
inductive Evaluates (c : Catalog) (cond : Condition) : Prop
  | visible {d : Exit} (hd : d ∈ c.exits.toList) (h : d.visibleWhen = some cond)
  | opened {d : Exit} (hd : d ∈ c.exits.toList) (h : d.openWhen = some cond)
  | requirement {d : Interaction} (hd : d ∈ c.interactions.toList) (h : d.requires = some cond)
  | trigger {b : Beat} (hb : b ∈ c.beats.toList) (hgate : c.isGateBeat b.id = false)
      (h : b.trigger = cond)
  | spoke {d : Spoke} (hd : d ∈ c.spokes.toList) (h : d.condition = cond)
  | gate {a : Act} (ha : a ∈ c.acts.toList) (h : a.gate = some cond)
  | victory {d : Victory} (hd : d ∈ c.victory.toList) (h : d.condition = cond)

/-- The entities that definitions name, field by field, with those that their effects and the atoms
of their conditions refer to. -/
inductive Names (c : Catalog) : EntityKey → Prop
  | itemLocation {d : Item} {l : EntityId} (hd : d ∈ c.items.toList) (h : d.location = some l) :
      Names c (.location l)
  | itemHolder {d : Item} {p : EntityId} (hd : d ∈ c.items.toList) (h : d.holder = some p) :
      Names c (.character p)
  | characterLocation {d : Character} {l : EntityId} (hd : d ∈ c.characters.toList)
      (h : d.location = some l) : Names c (.location l)
  | exitOrigin {d : Exit} (hd : d ∈ c.exits.toList) : Names c (.location d.origin)
  | exitDestination {d : Exit} (hd : d ∈ c.exits.toList) : Names c (.location d.destination)
  | interactionLocation {d : Interaction} {l : EntityId} (hd : d ∈ c.interactions.toList)
      (h : d.location = some l) : Names c (.location l)
  | interactionTarget {d : Interaction} {key : EntityKey} (hd : d ∈ c.interactions.toList)
      (h : d.target = some key) : Names c key
  | interactionItem {d : Interaction} {i : EntityId} (hd : d ∈ c.interactions.toList)
      (h : d.item = some i) : Names c (.item i)
  | spokeAct {d : Spoke} (hd : d ∈ c.spokes.toList) : Names c (.act d.act)
  | actLocation {a : Act} {l : EntityId} (ha : a ∈ c.acts.toList)
      (h : l ∈ a.locations ∨ l ∈ a.excludeLocations) : Names c (.location l)
  | actCharacter {a : Act} {p : EntityId} (ha : a ∈ c.acts.toList)
      (h : p ∈ a.characters ∨ p ∈ a.excludeCharacters) : Names c (.character p)
  | gateBeat {a : Act} {b : EntityId} (ha : a ∈ c.acts.toList) (h : a.gateBeat = some b) :
      Names c (.beat b)
  | relocate {r : MigrationRule} {l : EntityId} (hr : r ∈ c.migrations)
      (h : r.relocate = some l) : Names c (.location l)
  | rename {r : MigrationRule} {kind : EntityKind} {old new : String} (hr : r ∈ c.migrations)
      (h : (r.rename.ofKind kind).get? old = some new) : Names c ⟨kind, new⟩
  | effect {e : Effect} {key : EntityKey} (he : c.Authors e) (h : key ∈ e.references) :
      Names c key
  | condition {cond : Condition} {a : Atom} {key : EntityKey} (hcond : c.Evaluates cond)
      (ha : cond.Mentions a) (h : key ∈ a.references) : Names c key

/-- Nothing that definitions name is missing, and authors leave alone what they must. -/
structure Closed (c : Catalog) : Prop where
  declared : ∀ key, c.Names key → c.contains key = true
  written : ∀ cond, c.Evaluates cond → ∀ f, cond.Reads f → ∃ value, c.Authors (.setFlag f value)
  spokeless : ∀ d ∈ c.spokes.toList, ∀ x, ¬d.condition.Mentions (.spoke x)
  keeping : ∀ i, c.isCritical i = true →
    ¬c.Authors (.removeItem i) ∧ ¬c.Authors (.destroyItem i) ∧ ∀ p, ¬c.Authors (.handItem i p)
  describable : ∀ key text, c.Authors (.describe key text) → key.kind.overridable = true

variable {c : Catalog} {source : Source}

/-! ### What the passes make sure of -/

theorem authors_setFlag_of_mem {f : String} (h : f ∈ c.writtenFlags) :
    ∃ value, c.Authors (.setFlag f value) := by
  obtain ⟨e, he, hflag⟩ := List.mem_filterMap.1 h
  have hauthors : c.Authors e := by
    rcases List.mem_append.1 he with he | he
    · obtain ⟨d, hd, he⟩ := List.mem_flatMap.1 he
      exact .interaction hd he
    · obtain ⟨b, hb, he⟩ := List.mem_flatMap.1 he
      exact .beat hb he
  cases e with
  | setFlag flag value =>
    obtain rfl : flag = f := Option.some.inj hflag
    exact ⟨value, hauthors⟩
  | _ => cases hflag

theorem sound_of_checkCondition {field : String} {cond : Condition}
    (h : c.checkCondition source field cond = []) : cond.Sound c := by
  obtain ⟨hkeys, hflags⟩ := List.append_eq_nil_iff.1 h
  refine ⟨fun a ha key hkey => ?_, fun f hf => authors_setFlag_of_mem ?_⟩
  · have hread : key ∈ cond.references := List.mem_flatMap.2 ⟨a, ha.mem_atoms, hkey⟩
    exact contains_of_checkKey (List.flatMap_eq_nil_iff.1 hkeys key hread)
  · have hwritten := List.filter_eq_nil_iff.1 (List.map_eq_nil_iff.1 hflags) f hf.mem_flagsRead
    simpa using hwritten

theorem sound_of_checkCondition? {field : String} {cond? : Option Condition} {cond : Condition}
    (h : c.checkCondition? source field cond? = []) (hcond : cond? = some cond) :
    cond.Sound c := by
  subst hcond
  exact sound_of_checkCondition (List.flatMap_eq_nil_iff.1 h cond (.head _))

/-- Every act is checked, with the gate beats of some acts in mind. -/
theorem checkAct_of_checkActs {seen : List EntityId} {ds : List Act}
    (h : c.checkActs seen ds = []) {d : Act} (hd : d ∈ ds) :
    ∃ seen', c.checkAct seen' d = [] := by
  induction ds generalizing seen with
  | nil => cases hd
  | cons a as ih =>
    obtain ⟨ha, has⟩ := List.append_eq_nil_iff.1 h
    rcases List.mem_cons.1 hd with rfl | hd
    · exact ⟨seen, ha⟩
    · exact ih has hd

namespace Passes

variable (h : c.Passes)
include h

theorem condition {cond : Condition} (hcond : c.Evaluates cond) : cond.Sound c := by
  cases hcond with
  | visible hd heq =>
    have h := h.exits _ hd
    simp only [checkExit, List.append_eq_nil_iff] at h
    exact sound_of_checkCondition? h.1.1.2 heq
  | opened hd heq =>
    have h := h.exits _ hd
    simp only [checkExit, List.append_eq_nil_iff] at h
    exact sound_of_checkCondition? h.1.2 heq
  | requirement hd heq =>
    have h := h.interactions _ hd
    simp only [checkInteraction, List.append_eq_nil_iff] at h
    exact sound_of_checkCondition? h.1.1.2 heq
  | trigger hb hgate heq =>
    have h := (List.append_eq_nil_iff.1 (h.beats _ hb)).1
    rw [hgate] at h
    exact heq ▸ sound_of_checkCondition h
  | spoke hd heq =>
    have h := (List.append_eq_nil_iff.1 (h.spokes _ hd)).2
    exact heq ▸ sound_of_checkCondition h
  | gate ha heq =>
    obtain ⟨_, h⟩ := checkAct_of_checkActs h.acts ha
    exact sound_of_checkCondition? (List.append_eq_nil_iff.1 (List.append_eq_nil_iff.1 h).1).2 heq
  | victory hd heq => exact heq ▸ sound_of_checkCondition (h.victory _ hd)

theorem declared {key : EntityKey} (hkey : c.Names key) : c.contains key = true := by
  cases hkey with
  | itemLocation hd heq =>
    have h := (List.append_eq_nil_iff.1 (List.append_eq_nil_iff.1 (h.items _ hd)).1).1
    exact contains_of_checkKey? h (by rw [heq]; rfl)
  | itemHolder hd heq =>
    have h := (List.append_eq_nil_iff.1 (List.append_eq_nil_iff.1 (h.items _ hd)).1).2
    exact contains_of_checkKey? h (by rw [heq]; rfl)
  | characterLocation hd heq =>
    exact contains_of_checkKey? (h.characters _ hd) (by rw [heq]; rfl)
  | exitOrigin hd =>
    have h := h.exits _ hd
    simp only [checkExit, List.append_eq_nil_iff] at h
    exact contains_of_checkKey h.1.1.1.1
  | exitDestination hd =>
    have h := h.exits _ hd
    simp only [checkExit, List.append_eq_nil_iff] at h
    exact contains_of_checkKey h.1.1.1.2
  | interactionLocation hd heq =>
    have h := h.interactions _ hd
    simp only [checkInteraction, List.append_eq_nil_iff] at h
    exact contains_of_checkKey? h.1.1.1.1.1 (by rw [heq]; rfl)
  | interactionTarget hd heq =>
    have h := h.interactions _ hd
    simp only [checkInteraction, List.append_eq_nil_iff] at h
    exact contains_of_checkKey? h.1.1.1.1.2 heq
  | interactionItem hd heq =>
    have h := h.interactions _ hd
    simp only [checkInteraction, List.append_eq_nil_iff] at h
    exact contains_of_checkKey? h.1.1.1.2 (by rw [heq]; rfl)
  | spokeAct hd =>
    have h := (List.append_eq_nil_iff.1 (List.append_eq_nil_iff.1 (h.spokes _ hd)).1).1
    exact contains_of_checkKey h
  | actLocation ha hl =>
    obtain ⟨_, h⟩ := checkAct_of_checkActs h.acts ha
    simp only [checkAct, List.append_eq_nil_iff, List.flatMap_eq_nil_iff] at h
    exact contains_of_checkKey (h.1.1.1 _ (List.mem_append.2 hl))
  | actCharacter ha hp =>
    obtain ⟨_, h⟩ := checkAct_of_checkActs h.acts ha
    simp only [checkAct, List.append_eq_nil_iff, List.flatMap_eq_nil_iff] at h
    exact contains_of_checkKey (h.1.1.2 _ (List.mem_append.2 hp))
  | gateBeat ha heq =>
    obtain ⟨_, h⟩ := checkAct_of_checkActs h.acts ha
    simp only [checkAct, List.append_eq_nil_iff, List.flatMap_eq_nil_iff] at h
    exact contains_of_checkKey (h.2 _ (Option.mem_toList.2 heq)).1
  | relocate hr heq =>
    have h := h.migrations _ hr
    simp only [checkMigration, List.append_eq_nil_iff] at h
    exact contains_of_checkKey? h.1.2 (by rw [heq]; rfl)
  | rename hr heq =>
    have h := h.migrations _ hr
    simp only [checkMigration, List.append_eq_nil_iff, List.flatMap_eq_nil_iff] at h
    have hvalue := List.mem_map_of_mem (f := (·.2)) (SortedMap.get?_eq_some_iff.1 heq)
    exact contains_of_checkKey (h.2 _ (EntityKind.mem_all _) _ hvalue)
  | effect he hkey =>
    obtain ⟨_, hcheck⟩ := h.effect he
    exact (sound_of_checkEffect hcheck).declared _ hkey
  | condition hcond ha hkey => exact (h.condition hcond).declared _ ha _ hkey

end Passes

theorem Accepted.closed (h : c.Accepted) : c.Closed where
  declared _ := h.passes.declared
  written _ hcond := (h.passes.condition hcond).written
  spokeless d hd x hx := by
    have hnone := h.spoke_atoms hd hx.mem_atoms
    cases hnone
  keeping i hcrit := by
    have hparts : ∀ e, c.Authors e → e.parts? ≠ some i :=
      fun e he => parts?_ne_of_safe (h.effect_safe he) hcrit
    exact ⟨fun he => hparts _ he rfl, fun he => hparts _ he rfl, fun _ he => hparts _ he rfl⟩
  describable key text he := (h.effect_sound he).describable key text rfl

end Catalog

/-! ### Documents -/

/-- No two definitions of one kind share an identifier. -/
structure WorldDocument.Distinct (doc : WorldDocument) : Prop where
  locations : (doc.locations.map (·.id)).Nodup
  items : (doc.items.map (·.id)).Nodup
  characters : (doc.characters.map (·.id)).Nodup
  exits : (doc.exits.map (·.id)).Nodup
  interactions : (doc.interactions.map (·.id)).Nodup
  beats : (doc.beats.map (·.id)).Nodup
  spokes : (doc.spokes.map (·.id)).Nodup
  acts : (doc.acts.map (·.id)).Nodup
  victory : (doc.victory.map (·.id)).Nodup

namespace Catalog

variable {c : Catalog} {doc : WorldDocument}

/-- The catalog lists all definitions of the document, in order. -/
structure Lists (c : Catalog) (doc : WorldDocument) : Prop where
  locations : c.locations.toList = doc.locations
  items : c.items.toList = doc.items
  characters : c.characters.toList = doc.characters
  exits : c.exits.toList = doc.exits
  interactions : c.interactions.toList = doc.interactions
  beats : c.beats.toList = doc.beats
  spokes : c.spokes.toList = doc.spokes
  acts : c.acts.toList = doc.acts
  victory : c.victory.toList = doc.victory
  migrations : c.migrations = doc.migrations

theorem distinct_of_checkSections (h : checkSections doc = []) : doc.Distinct := by
  simp only [checkSections, List.append_eq_nil_iff, List.map_eq_nil_iff] at h
  obtain ⟨⟨⟨⟨⟨⟨⟨⟨⟨⟨⟨-, -⟩, hacts⟩, -⟩, hlocations⟩, hitems⟩, hcharacters⟩, hexits⟩, hinteractions⟩,
    hbeats⟩, hspokes⟩, hvictory⟩ := h
  exact {
    locations := Table.nodup_of_duplicates hlocations
    items := Table.nodup_of_duplicates hitems
    characters := Table.nodup_of_duplicates hcharacters
    exits := Table.nodup_of_duplicates hexits
    interactions := Table.nodup_of_duplicates hinteractions
    beats := Table.nodup_of_duplicates hbeats
    spokes := Table.nodup_of_duplicates hspokes
    acts := Table.nodup_of_duplicates hacts
    victory := Table.nodup_of_duplicates hvictory }

theorem lists_draft (h : doc.Distinct) : (draft doc).Lists doc where
  locations := Table.firsts_eq_self h.locations
  items := Table.firsts_eq_self h.items
  characters := Table.firsts_eq_self h.characters
  exits := Table.firsts_eq_self h.exits
  interactions := Table.firsts_eq_self h.interactions
  beats := Table.firsts_eq_self h.beats
  spokes := Table.firsts_eq_self h.spokes
  acts := Table.firsts_eq_self h.acts
  victory := Table.firsts_eq_self h.victory
  migrations := rfl

/-- A document that loads has one definition for every identifier of a kind, its catalog lists them
all, and nothing that they name is missing. -/
theorem closed_of_ofDocument (h : ofDocument doc = .ok c) :
    doc.Distinct ∧ c.Lists doc ∧ c.Closed := by
  have hclosed : c.Closed := Accepted.closed ⟨doc, h⟩
  obtain ⟨hproblems, rfl⟩ := ofDocument_eq_ok_iff.1 h
  have hdistinct := distinct_of_checkSections (List.append_eq_nil_iff.1 hproblems).1
  exact ⟨hdistinct, lists_draft hdistinct, hclosed⟩

end Catalog

def clearSky : Condition :=
  .all [.atom (.hasItem "lens"), .any [.not (.atom (.flag "clouded")), .atom (.beatFired "eclipse")]]

/-- An observatory in which every section names something of another. The trigger of the gate beat
reads a flag that nobody sets, which is no matter. -/
def observatoryDoc : WorldDocument where
  world := some { title := "Observatory" }
  start := some { location := "dome" }
  locations := [{ id := "dome", name := "Dome" }, { id := "stair", name := "Stair" }]
  items := [
    { id := "lens", name := "lens", location := some "dome", critical := true },
    { id := "chart", name := "chart", holder := some "keeper" }]
  characters := [{ id := "keeper", name := "Keeper", location := some "stair" }]
  exits := [{ id := "down", origin := "dome", destination := "stair", direction := some "down" }]
  interactions := [
    { id := "align", kind := .use, location := some "dome", target := some (.item "chart"),
      item := some "lens", requires := some clearSky,
      effects := [.setFlag "aligned" (.bool true), .clearFlag "clouded"] }]
  beats := [
    { id := "drift", trigger := .atom (.at "stair"), effects := [.setFlag "clouded" (.bool true)] },
    { id := "eclipse", trigger := .atom (.flag "never"),
      effects := [.describe (.location "dome") "It is dark."] }]
  spokes := [{ id := "study", act := "night", condition := .atom (.flag "aligned") }]
  acts := [
    { id := "night", locations := ["dome", "stair"], characters := ["keeper"],
      gate := some (.atom (.spoke "study")), gateBeat := some "eclipse" },
    { id := "dawn", mode := .replace, locations := ["dome"], excludeLocations := ["stair"] }]
  victory := [{ id := "seen", condition := .atom (.actReached "dawn") }]
  migrations := [{ version := "0.9", rename := { items := .ofList [("glass", "lens")] } }]

def observatory : Catalog := .draft observatoryDoc

theorem ofDocument_observatory : Catalog.ofDocument observatoryDoc = .ok observatory :=
  Catalog.ofDocument_eq_ok_iff.2 ⟨by decide, rfl⟩

/-- The flag that is read deep inside the requirement of the observatory's interaction is set by an
author, and what it is renamed to is declared. -/
theorem observatory_closed :
    Catalog.ofDocument observatoryDoc = .ok observatory ∧ observatoryDoc.Distinct ∧
      observatory.Lists observatoryDoc ∧ observatory.Closed ∧
      observatory.Evaluates clearSky ∧ clearSky.Reads "clouded" ∧
      (∃ value, observatory.Authors (.setFlag "clouded" value)) ∧
      observatory.Names (.item "lens") ∧ observatory.contains (.item "lens") = true := by
  obtain ⟨hdistinct, hlists, hclosed⟩ := Catalog.closed_of_ofDocument ofDocument_observatory
  have heval : observatory.Evaluates clearSky := .requirement (.head _) rfl
  have hreads : clearSky.Reads "clouded" :=
    .inl (.all (.tail _ (.head _)) (.any (.head _) (.not .atom)))
  have hrule : { version := "0.9", rename := { items := .ofList [("glass", "lens")] } } ∈
      observatory.migrations := .head _
  have hrenamed : (SortedMap.ofList [("glass", "lens")]).get? "glass" = some "lens" := rfl
  have hname : observatory.Names (.item "lens") := .rename hrule hrenamed
  exact ⟨ofDocument_observatory, hdistinct, hlists, hclosed, heval, hreads,
    hclosed.written _ heval "clouded" hreads, hname, hclosed.declared _ hname⟩

end Storyworld
