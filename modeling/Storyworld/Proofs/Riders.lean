import Storyworld.Integrity
import Storyworld.Proofs.Approval

/-!
# Riders

An intent brings an interaction with it, its rider. The planner chooses the rider and the validator
checks it, each by looking at the interactions for itself. They agree on which could still answer
the intent (`View.Contends`): a rider is one of them (`View.contends_of_rider?`), and one whose
requirement fails is chosen only if the requirement of every other fails too
(`View.unmet_rider_iff`). The other checks have nothing to say of riders
(`View.refusal?_validate_iff`). So no plan is refused as done already, and one is refused for a
requirement exactly if nothing that could still answer it has its own met (`refused_unmet_iff`).
-/

namespace Storyworld

/-- The interaction is of the kind of the verb, and about what the verb names. -/
def Interaction.Answers (d : Interaction) : Intent → Prop
  | .examine (some key) => d.kind = .examine ∧ d.target = some key
  | .take key => d.kind = .take ∧ d.item = some key.id
  | .use key on => d.kind = .use ∧ d.item = some key.id ∧ key.kind = .item ∧ d.target = on
  | .talk key => d.kind = .talk ∧ d.target = some key
  | .move _ | .examine none | .drop _ | .interact _ => False

namespace View

variable {v : View} {i : Intent} {d : Interaction} {ds : List Interaction} {p : Plan}

/-- The interaction could still answer the intent where the player is. -/
structure Contends (v : View) (i : Intent) (d : Interaction) : Prop where
  declared : d ∈ v.catalog.interactions.toList
  answers : d.Answers i
  offered : v.offers d = true
  unspent : v.spent d = false

/-! ### Choosing -/

theorem unspent_of_preferred (h : v.preferred ds = some d) : v.spent d = false := by
  unfold preferred at h
  dsimp only at h
  rw [Option.orElse_eq_orElse, Option.orElse_eq_or] at h
  have hmem : d ∈ ds.filter fun d => !v.spent d := by
    rcases Option.or_eq_some_iff.1 h with h | ⟨-, h⟩
    · exact List.mem_of_find?_eq_some h
    · exact List.mem_of_head? h
  simpa using (List.mem_filter.1 hmem).2

theorem exists_preferred (hd : d ∈ ds) (hspent : v.spent d = false) :
    ∃ d, v.preferred ds = some d := by
  have hmem : d ∈ ds.filter fun d => !v.spent d := List.mem_filter.2 ⟨hd, by simp [hspent]⟩
  unfold preferred
  dsimp only
  rw [Option.orElse_eq_orElse, Option.orElse_eq_or]
  cases hunspent : ds.filter fun d => !v.spent d with
  | nil => simp [hunspent] at hmem
  | cons e es => cases (e :: es).find? v.ready <;> exact ⟨_, rfl⟩

theorem not_ready_of_preferred (h : v.preferred ds = some d) (hd : v.ready d = false)
    {e : Interaction} (he : e ∈ ds) (hspent : v.spent e = false) : v.ready e = false := by
  have hmem : e ∈ ds.filter fun d => !v.spent d := List.mem_filter.2 ⟨he, by simp [hspent]⟩
  unfold preferred at h
  dsimp only at h
  rw [Option.orElse_eq_orElse, Option.orElse_eq_or] at h
  rcases Option.or_eq_some_iff.1 h with hfind | ⟨hnone, -⟩
  · rw [List.find?_some hfind] at hd
    cases hd
  · simpa using List.find?_eq_none.1 hnone e hmem

theorem mem_filter_offered {kind : InteractionKind} {fits : Interaction → Bool} :
    d ∈ (v.offered kind).filter fits ↔
      d ∈ v.catalog.interactions.toList ∧ (d.kind = kind ∧ fits d = true) ∧
        v.offers d = true := by
  simp only [offered, List.mem_filter, Bool.and_eq_true, beq_iff_eq]
  exact ⟨fun ⟨⟨hd, hkind, hoffered⟩, hfits⟩ => ⟨hd, ⟨hkind, hfits⟩, hoffered⟩,
    fun ⟨hd, ⟨hkind, hfits⟩, hoffered⟩ => ⟨⟨hd, hkind, hoffered⟩, hfits⟩⟩

/-- The rider is chosen among the interactions that answer the intent here. To look at something
takes the first that is ready or none. -/
theorem exists_contending (v : View) (hi : ∀ x, i ≠ .interact x) :
    ∃ ds, (∀ d, d ∈ ds ↔
        d ∈ v.catalog.interactions.toList ∧ d.Answers i ∧ v.offers d = true) ∧
      ((∀ key, i ≠ .examine key) → v.rider? i = v.preferred ds) ∧
      ∀ key, i = .examine key → v.rider? i = ds.find? v.ready := by
  cases i with
  | move x => exact ⟨[], by simp [Interaction.Answers], fun _ => rfl, fun _ h => nomatch h⟩
  | drop key => exact ⟨[], by simp [Interaction.Answers], fun _ => rfl, fun _ h => nomatch h⟩
  | examine key =>
    refine ⟨key.elim [] fun key => (v.offered .examine).filter (·.target == some key),
      fun d => ?_, fun h => absurd rfl (h key), fun _ _ => ?_⟩
    · cases key with
      | none => simp [Interaction.Answers]
      | some key => exact mem_filter_offered.trans (by simp [Interaction.Answers])
    · cases key with
      | none => rfl
      | some key =>
        simp only [rider?, Option.elim, List.find?_filter, Bool.decide_and, Bool.decide_eq_true]
  | take key =>
    exact ⟨(v.offered .take).filter (·.item == some key.id),
      fun d => mem_filter_offered.trans (by simp [Interaction.Answers]), fun _ => rfl,
      fun _ h => nomatch h⟩
  | use key on =>
    exact ⟨(v.offered .use).filter fun d =>
        d.item == some key.id && key.kind == .item && d.target == on,
      fun d => mem_filter_offered.trans (by simp [Interaction.Answers, and_assoc]), fun _ => rfl,
      fun _ h => nomatch h⟩
  | talk key =>
    exact ⟨(v.offered .talk).filter (·.target == some key),
      fun d => mem_filter_offered.trans (by simp [Interaction.Answers]), fun _ => rfl,
      fun _ h => nomatch h⟩
  | interact x => exact absurd rfl (hi x)

theorem contends_of_rider? (hi : ∀ x, i ≠ .interact x) (h : v.rider? i = some d) :
    v.Contends i d := by
  obtain ⟨ds, hds, hpreferred, hexamine⟩ := v.exists_contending hi
  have hmem : d ∈ ds ∧ v.spent d = false := by
    by_cases hlook : ∃ key, i = .examine key
    · obtain ⟨key, hlook⟩ := hlook
      rw [hexamine key hlook] at h
      have hready := List.find?_some h
      exact ⟨List.mem_of_find?_eq_some h, by simp [ready] at hready; exact hready.1.2⟩
    · rw [hpreferred fun key hkey => hlook ⟨key, hkey⟩] at h
      exact ⟨mem_of_preferred h, unspent_of_preferred h⟩
  obtain ⟨hdeclared, hanswers, hoffered⟩ := (hds d).1 hmem.1
  exact ⟨hdeclared, hanswers, hoffered, hmem.2⟩

theorem ready_of_rider?_examine {key : Option EntityKey} (h : v.rider? (.examine key) = some d) :
    v.ready d = true := by
  cases key with
  | none => cases h
  | some key =>
    have hready := List.find?_some h
    exact (Bool.and_eq_true_iff.1 hready).2

theorem Contends.ready_eq (h : v.Contends i d) : v.ready d = v.holds? d.requires := by
  simp [ready, h.offered, h.unspent]

/-- An intent brings a rider whose requirement fails exactly if something could still answer it and
the requirement of all that could fails. -/
theorem unmet_rider_iff (hi : ∀ x, i ≠ .interact x) :
    (∃ d, v.rider? i = some d ∧ v.holds? d.requires = false) ↔
      (∀ key, i ≠ .examine key) ∧ (∃ d, v.Contends i d) ∧
        ∀ d, v.Contends i d → v.holds? d.requires = false := by
  obtain ⟨ds, hds, hpreferred, -⟩ := v.exists_contending hi
  constructor
  · rintro ⟨d, hd, hunmet⟩
    have hcontends := contends_of_rider? hi hd
    have hlook : ∀ key, i ≠ .examine key := by
      rintro key rfl
      rw [← hcontends.ready_eq, ready_of_rider?_examine hd] at hunmet
      cases hunmet
    refine ⟨hlook, ⟨d, hcontends⟩, fun e he => ?_⟩
    rw [hpreferred hlook] at hd
    rw [← he.ready_eq]
    exact not_ready_of_preferred hd (by rwa [hcontends.ready_eq])
      ((hds e).2 ⟨he.declared, he.answers, he.offered⟩) he.unspent
  · rintro ⟨hlook, ⟨e, he⟩, hunmet⟩
    have hmem := (hds e).2 ⟨he.declared, he.answers, he.offered⟩
    obtain ⟨d, hd⟩ := exists_preferred hmem he.unspent
    rw [← hpreferred hlook] at hd
    exact ⟨d, hd, hunmet d (contends_of_rider? hi hd)⟩

/-! ### Checking -/

theorem Contends.checkInteraction_eq (h : v.Contends i d) :
    v.checkInteraction i d =
      if v.holds? d.requires then none
      else Verdict.object .requirementUnmet (d.refusal.getD "You can't do that yet.") := by
  have hi : ∀ x, i ≠ .interact x := by
    rintro x rfl
    exact h.answers
  unfold checkInteraction
  cases hrequires : v.holds? d.requires <;> cases i <;>
    simp_all [h.offered, h.unspent, Option.orElse_eq_orElse]

theorem refusal?_or_iff {a b : Option Verdict} {es : List Effect} {r : Refusal}
    {rs : List Refusal} (ha : ∀ x, a = some x → x.Objects rs) (hr : r ∉ rs) :
    ((a.or b).getD (.approved es)).refusal? = some r ↔
      a = none ∧ (b.getD (.approved es)).refusal? = some r := by
  cases a with
  | none => simp
  | some x => simpa using fun h => hr ((ha x rfl).2 r h)

/-- The rider is blamed where the verb fits, what it names is there, and the rider is objected to
for it: the checks that come later have nothing to say of riders. -/
theorem refusal?_validate_iff {r : Refusal} (hr : r = .requirementUnmet ∨ r = .alreadyDone) :
    (v.validate p).refusal? = some r ↔
      v.checkFit p.intent = none ∧ v.checkTarget p.intent = none ∧
        ∃ d, p.interaction.bind v.catalog.interactions.get? = some d ∧
          (v.checkInteraction p.intent d).bind Verdict.refusal? = some r := by
  have hnot : ∀ rs : List Refusal, .requirementUnmet ∉ rs → .alreadyDone ∉ rs → r ∉ rs := by
    rintro rs h h'
    rcases hr with rfl | rfl
    · exact h
    · exact h'
  have hlater : (((v.checkOwnership p.intent).or ((v.checkCritical p.effects).or
      ((v.checkWinnable p.effects).or none))).getD (.approved p.effects)).refusal? ≠ some r := by
    rw [Ne, refusal?_or_iff (fun _ => objects_checkOwnership) (hnot _ (by decide) (by decide)),
      refusal?_or_iff (fun _ => objects_checkCritical) (hnot _ (by decide) (by decide)),
      refusal?_or_iff (fun _ => objects_checkWinnable) (hnot _ (by decide) (by decide))]
    rintro ⟨-, -, -, h⟩
    cases h
  unfold validate checkAccess
  rw [Option.or_none] at hlater
  simp only [Option.orElse_eq_orElse, Option.orElse_eq_or, Option.or_assoc]
  rw [refusal?_or_iff (fun _ => objects_checkFit) (hnot _ (by decide) (by decide)),
    refusal?_or_iff (fun _ => objects_checkTarget) (hnot _ (by decide) (by decide))]
  refine and_congr_right fun _ => and_congr_right fun _ => ?_
  cases hrider : p.interaction.bind v.catalog.interactions.get? with
  | none => simpa using hlater
  | some d =>
    cases hcheck : v.checkInteraction p.intent d with
    | none => simpa [hcheck] using hlater
    | some x => simp [hcheck]

end View

open View

/-- No plan brings an interaction that is spent, that is not offered where the player is, or that
does not answer the player's words, and none is refused as done already. One is refused for a
requirement exactly if the verb fits, what it names is there, and something could still answer it,
but nothing that could has its requirement met; and looking at something never is. -/
theorem refused_unmet_iff (v : View) (i : Intent) (hi : ∀ x, i ≠ .interact x) :
    (∀ id ∈ (v.plan i).interaction, ∃ d, v.catalog.interactions.get? id = some d ∧
      v.Contends i d) ∧
    (v.validate (v.plan i)).refusal? ≠ some .alreadyDone ∧
    ((v.validate (v.plan i)).refusal? = some .requirementUnmet ↔
      v.checkFit i = none ∧ v.checkTarget i = none ∧ (∀ key, i ≠ .examine key) ∧
        (∃ d, v.Contends i d) ∧ ∀ d, v.Contends i d → v.holds? d.requires = false) := by
  obtain ⟨hintent, hplan⟩ := v.plan_cases i
  rw [refusal?_validate_iff (.inl rfl), Ne, refusal?_validate_iff (.inr rfl), hintent,
    ← unmet_rider_iff hi]
  obtain ⟨hrider, -, hnone⟩ | ⟨d, hrider, -, hsome⟩ := hplan
  · simp [hrider, hnone]
  · have hcontends := contends_of_rider? hi hrider
    rw [hsome, hrider]
    refine ⟨fun id hid => ⟨d, ?_, hcontends⟩, ?_⟩
    · rwa [hid] at hsome
    · simp only [Option.some.injEq, exists_eq_left', hcontends.checkInteraction_eq]
      cases v.holds? d.requires <;> simp [Verdict.object, Verdict.refusal?]

/-- A yard with a well, and a bucket to draw from it once and to fill when it has rained. -/
def wellDoc : WorldDocument where
  world := some { title := "Well" }
  start := some { location := "yard", inventory := ["bucket"] }
  locations := [{ id := "yard", name := "Yard" }]
  items := [
    { id := "bucket", name := "bucket" },
    { id := "well", name := "well", location := some "yard", portable := false }]
  interactions := [
    { id := "fill", kind := .use, item := some "bucket", target := some (.item "well")
      requires := some (.atom (.flag "rain")), refusal := some "The well is dry." },
    { id := "draw", kind := .use, item := some "bucket", target := some (.item "well") }]
  acts := [{ id := "drought", locations := ["yard"] }]

def well : Catalog := .draft wellDoc

def dryWell : View where
  catalog := well
  state := { State.initial well with usedInteractions := SortedSet.empty.insert "draw" }

def useBucket : Intent := .use (.item "bucket") (some (.item "well"))

/-- While there is water to draw, the bucket draws it. After that filling the bucket is refused,
since nothing else that it could still do at the well has its requirement met. -/
theorem fill_waits_for_rain :
    ((View.mk well (.initial well)).plan useBucket).interaction = some "draw" ∧
    (dryWell.plan useBucket).interaction = some "fill" ∧
    ∀ d, dryWell.Contends useBucket d → dryWell.holds? d.requires = false := by
  have hrefused : (dryWell.validate (dryWell.plan useBucket)).refusal? =
      some .requirementUnmet := by decide +kernel
  have hverb : ∀ x, useBucket ≠ .interact x := fun _ h => nomatch h
  refine ⟨by decide +kernel, by decide +kernel, ?_⟩
  exact ((refused_unmet_iff dryWell useBucket hverb).2.2.1 hrefused).2.2.2.2

end Storyworld
