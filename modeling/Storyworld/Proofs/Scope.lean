import Storyworld.Proofs.Permanence
import Storyworld.Proofs.Reckoning

/-!
# What a line can be about

The player can mean what is in scope: the location, the exits that leave it, the items that lie
there or are carried, and the characters within reach who stand there. The vocabulary holds exactly
what is declared of that (`View.mem_keys_vocabulary_iff`). Looking up only chooses among candidates,
whatever the scores are, so an intent that is read off a line without a companion is about what is
in scope (`Interpreter.interpret_in_scope`).
-/

namespace Storyworld

open Text

namespace View

variable {v : View}

/-- The player can mean the entity where they are. -/
def InScope (v : View) (key : EntityKey) : Prop :=
  match key.kind with
  | .location => key.id = v.state.location
  | .exit => ∃ e, v.catalog.exits.get? key.id = some e ∧ e.origin = v.state.location
  | .item => v.placement key.id = .location v.state.location ∨ v.placement key.id = .carried
  | .character => key.id ∈ v.reachableCharacters ∧ v.standing? key.id = some v.state.location
  | _ => False

/-! ### The vocabulary -/

theorem exists_location?_iff {x : EntityId} :
    (∃ d, v.location? x = some d) ↔ v.catalog.locations.contains x = true := by
  rw [Table.contains_iff_exists]
  simp [location?]

theorem exists_exit?_iff {x : EntityId} :
    (∃ e, v.exit? x = some e) ↔ v.catalog.exits.contains x = true := by
  rw [Table.contains_iff_exists]
  simp [exit?]

theorem mem_exitsFrom_iff {l x : EntityId} :
    (∃ e ∈ v.exitsFrom l, e.id = x) ↔ ∃ e, v.catalog.exits.get? x = some e ∧ e.origin = l := by
  constructor
  · rintro ⟨e, he, rfl⟩
    obtain ⟨d, hd, he⟩ := List.mem_filterMap.1 he
    obtain ⟨hd, hl⟩ := List.mem_filter.1 hd
    obtain ⟨d', hget, hid, -⟩ := exit?_eq_some he
    have hd' : v.catalog.exits.get? d.id = some d := Table.get?_eq_some_iff.2 ⟨hd, rfl⟩
    obtain rfl := Option.some.inj (hget.symm.trans hd')
    exact ⟨d', by rwa [hid], by simpa using hl⟩
  · rintro ⟨d, hd, rfl⟩
    obtain ⟨hmem, rfl⟩ := Table.get?_eq_some_iff.1 hd
    obtain ⟨e, he⟩ := exists_exit?_iff.2 (Table.contains_of_mem hmem)
    obtain ⟨d', hget, hid, -⟩ := exit?_eq_some he
    obtain rfl := Option.some.inj (hget.symm.trans hd)
    have hfrom : d' ∈ v.catalog.exits.toList.filter (·.origin == d'.origin) :=
      List.mem_filter.2 ⟨hmem, beq_self_eq_true _⟩
    exact ⟨e, List.mem_filterMap.2 ⟨d', hfrom, he⟩, hid⟩

theorem exists_item?_iff {i : EntityId} :
    (∃ d, v.item? i = some d) ↔ v.catalog.items.contains i = true := by
  rw [Table.contains_iff_exists]
  simp [item?]

theorem mem_itemsAt_iff {l i : EntityId} :
    (∃ d ∈ v.itemsAt l, d.id = i) ↔
      v.catalog.items.contains i = true ∧ v.placement i = .location l := by
  constructor
  · rintro ⟨d, hd, rfl⟩
    refine ⟨?_, placement_of_mem_itemsAt hd⟩
    obtain ⟨authored, -, hd⟩ := List.mem_filterMap.1 hd
    rw [id_of_item? hd]
    exact exists_item?_iff.1 ⟨d, hd⟩
  · rintro ⟨hi, hl⟩
    obtain ⟨d, hd⟩ := exists_item?_iff.2 hi
    obtain ⟨authored, hget⟩ := Table.contains_iff_exists.1 hi
    obtain ⟨hmem, rfl⟩ := Table.get?_eq_some_iff.1 hget
    have hlies : authored ∈ v.catalog.items.toList.filter fun d => (v.placement d.id).isIn l := by
      refine List.mem_filter.2 ⟨hmem, ?_⟩
      have hl : v.placement authored.id = .location l := hl
      simp [Placement.isIn, hl]
    exact ⟨d, List.mem_filterMap.2 ⟨authored, hlies, hd⟩, id_of_item? hd⟩

theorem mem_inventory_iff {i : EntityId} :
    (∃ d ∈ v.inventory, d.id = i) ↔
      v.catalog.items.contains i = true ∧ v.placement i = .carried := by
  constructor
  · rintro ⟨d, hd, rfl⟩
    obtain ⟨i, hi, hd⟩ := List.mem_filterMap.1 hd
    rw [id_of_item? hd]
    exact ⟨exists_item?_iff.1 ⟨d, hd⟩, placement_of_carried (List.contains_iff_mem.2 hi)⟩
  · rintro ⟨hi, hcarried⟩
    obtain ⟨d, hd⟩ := exists_item?_iff.2 hi
    have hmem : i ∈ v.state.inventory := List.contains_iff_mem.1 (hasItem_of_carried hcarried)
    exact ⟨d, List.mem_filterMap.2 ⟨i, hmem, hd⟩, id_of_item? hd⟩

theorem mem_distinctItems_iff {seen : List EntityId} {ds : List Item} {i : EntityId} :
    (∃ d ∈ distinctItems seen ds, d.id = i) ↔ i ∉ seen ∧ ∃ d ∈ ds, d.id = i := by
  induction ds generalizing seen with
  | nil => simp [distinctItems]
  | cons d ds ih =>
    unfold distinctItems
    split
    · rename_i hseen
      rw [ih]
      have hseen : d.id ∈ seen := List.contains_iff_mem.1 hseen
      refine and_congr_right fun hi => ?_
      have hne : d.id ≠ i := fun hid => hi (hid ▸ hseen)
      simp [hne]
    · rename_i hnew
      have hnew : d.id ∉ seen := fun h => hnew (List.contains_iff_mem.2 h)
      by_cases hid : d.id = i
      · subst hid
        simp [hnew]
      · simp [ih, hid, Ne.symm hid]

theorem declared_of_standing {p l : EntityId} (h : v.standing? p = some l) :
    v.catalog.characters.contains p = true := by
  obtain ⟨d, hd, -⟩ := Option.bind_eq_some_iff.1 h
  unfold character? at hd
  obtain ⟨authored, hget, -⟩ := Option.map_eq_some_iff.1 hd
  exact Table.contains_iff_exists.2 ⟨authored, hget⟩

/-- The vocabulary is of all that is declared and in scope. -/
theorem mem_keys_vocabulary_iff {key : EntityKey} :
    key ∈ v.vocabulary.map (·.key) ↔ v.InScope key ∧ v.catalog.contains key = true := by
  have hkeys : v.vocabulary.map (·.key) =
      (v.location? v.state.location).toList.map (fun _ => .location v.state.location) ++
        (v.exitsFrom v.state.location).map (.exit ·.id) ++
        (distinctItems [] (v.itemsAt v.state.location ++ v.inventory)).map (.item ·.id) ++
        (v.charactersAt v.state.location).map (.character ·.id) := by
    simp [vocabulary, Function.comp_def, locationCandidate, exitCandidate, itemCandidate,
      characterCandidate]
  obtain ⟨kind, id⟩ := key
  rw [hkeys]
  simp only [List.mem_append, List.mem_map]
  cases kind <;>
    simp only [Option.mem_toList, EntityKey.mk.injEq, reduceCtorEq, false_and, and_false, true_and,
      exists_const, or_self, or_false, false_or, InScope, Catalog.contains]
  case location =>
    rw [exists_and_right, exists_location?_iff, and_comm, eq_comm]
    exact and_congr_right fun hid => by rw [hid]
  case exit =>
    rw [mem_exitsFrom_iff]
    exact (and_iff_left_of_imp fun ⟨e, he, _⟩ => Table.contains_iff_exists.2 ⟨e, he⟩).symm
  case item =>
    simp only [mem_distinctItems_iff, List.not_mem_nil, not_false_eq_true, true_and,
      List.mem_append, or_and_right, exists_or, mem_itemsAt_iff, mem_inventory_iff]
    rw [and_comm, and_comm (b := _ = Placement.carried)]
  case character =>
    rw [mem_charactersAt_iff]
    exact (and_iff_left_of_imp fun h => declared_of_standing h.2).symm

end View

/-! ### Choosing -/

theorem mem_of_mem_foldl {α σ : Type} {step : List α × σ → α → List α × σ}
    (hstep : ∀ acc a x, x ∈ (step acc a).1 → x ∈ acc.1 ∨ x = a) {l : List α} {acc : List α × σ}
    {x : α} (h : x ∈ (l.foldl step acc).1) : x ∈ acc.1 ∨ x ∈ l := by
  induction l generalizing acc with
  | nil => exact .inl h
  | cons a l ih =>
    rcases ih h with h | h
    · exact (hstep acc a x h).imp_right fun hx => List.mem_cons.2 (.inl hx)
    · exact .inr (.tail _ h)

/-- Whatever the scores are, what is found is one of the candidates, of a kind that was asked for. -/
theorem Matching.mem_of_find_eq_found {m : Matching} {candidates : List Candidate} {text : String}
    {kinds : List EntityKind} {key : EntityKey} (h : m.find candidates text kinds = .found key) :
    key ∈ candidates.map (·.key) ∧ (kinds.isEmpty || kinds.contains key.kind) = true := by
  have hstep : ∀ acc (c x : Candidate), x ∈ (m.consider (phrase text) acc c).1 →
      x ∈ acc.1 ∨ x = c := by
    intro acc c x hx
    unfold consider at hx
    dsimp only at hx
    split at hx
    · exact .inl hx
    · split at hx
      · exact .inr (List.mem_singleton.1 hx)
      · split at hx
        · exact (List.mem_append.1 hx).imp_right List.mem_singleton.1
        · exact .inl hx
  unfold find at h
  dsimp only at h
  split at h
  · cases h
  · split at h
    · cases h
    · rename_i c hone
      cases h
      have hc := mem_of_mem_foldl hstep (l := candidates.filter _) (x := c) (by rw [hone]; simp)
      obtain ⟨hmem, hkind⟩ := List.mem_filter.1 (hc.resolve_left List.not_mem_nil)
      exact ⟨List.mem_map_of_mem hmem, hkind⟩
    · cases h

/-- Whatever the intent names is in scope; an interaction is where it is offered. -/
def Intent.InScope (v : View) : Intent → Prop
  | move x => v.InScope (.exit x)
  | interact x =>
    ∃ d, v.catalog.interactions.get? x = some d ∧ ∀ l ∈ d.location, l = v.state.location
  | examine target => ∀ key ∈ target, v.InScope key
  | take key | drop key | talk key => v.InScope key
  | use item on => v.InScope item ∧ ∀ key ∈ on, v.InScope key

variable {v : View} {i : Intent} {text : String}

theorem View.inScope_of_exitsFrom {e : Exit} (h : e ∈ v.exitsFrom v.state.location) :
    (Intent.move e.id).InScope v :=
  mem_exitsFrom_iff.1 ⟨e, h, rfl⟩

theorem View.inScope_of_offeredHere {d : Interaction} (h : d ∈ v.offeredHere) :
    (Intent.interact d.id).InScope v := by
  obtain ⟨hd, hoffers⟩ := List.mem_filter.1 h
  refine ⟨d, Table.get?_eq_some_iff.2 ⟨hd, rfl⟩, fun l hl => ?_⟩
  unfold offers at hoffers
  rw [Option.mem_def.1 hl] at hoffers
  simpa using hoffers

theorem Matching.inScope_of_find {m : Matching} {kinds : List EntityKind} {key : EntityKey}
    (h : m.find v.vocabulary text kinds = .found key) : v.InScope key :=
  (View.mem_keys_vocabulary_iff.1 (mem_of_find_eq_found h).1).1

theorem Lookup.read_eq_intent_iff {l : Lookup} {build : EntityKey → Intent} :
    l.read text build = .intent i ↔ ∃ key, l = .found key ∧ build key = i := by
  cases l <;> simp [read]

/-! ### Stages -/

theorem View.inScope_of_exactInteraction? {x : EntityId}
    (h : v.exactInteraction? text = some x) : (Intent.interact x).InScope v := by
  unfold exactInteraction? at h
  obtain ⟨d, hd, rfl⟩ := Option.map_eq_some_iff.1 h
  rw [Option.orElse_eq_orElse, Option.orElse_eq_or] at hd
  have hmem : d ∈ v.offeredHere.filter fun d => d.triggers.any (phrase · == text) := by
    rcases Option.or_eq_some_iff.1 hd with hd | ⟨-, hd⟩
    · exact List.mem_of_find?_eq_some hd
    · exact List.mem_of_head? hd
  exact inScope_of_offeredHere (List.mem_filter.1 hmem).1

theorem View.inScope_of_exitTowards? {d : Direction} {e : Exit} (h : v.exitTowards? d = some e) :
    (Intent.move e.id).InScope v := by
  unfold exitTowards? at h
  dsimp only at h
  rw [Option.orElse_eq_orElse, Option.orElse_eq_or] at h
  have hmem : e ∈ (v.exitsFrom v.state.location).filter fun e => e.direction.any d.isNamed := by
    rcases Option.or_eq_some_iff.1 h with he | ⟨-, he⟩
    · exact List.mem_of_find?_eq_some he
    · exact List.mem_of_head? he
  exact inScope_of_exitsFrom (List.mem_filter.1 hmem).1

theorem View.inScope_of_exitByPhrase? {x : EntityId} (h : v.exitByPhrase? text = some x) :
    (Intent.move x).InScope v := by
  unfold exitByPhrase? at h
  obtain ⟨e, he, rfl⟩ := Option.map_eq_some_iff.1 h
  rw [Option.orElse_eq_orElse, Option.orElse_eq_or] at he
  rcases Option.or_eq_some_iff.1 he with he | ⟨-, he⟩
  · exact inScope_of_exitsFrom (List.mem_of_find?_eq_some he)
  · exact inScope_of_exitsFrom (List.mem_of_find?_eq_some he)

namespace Interpreter

variable {r : Interpreter}

theorem inScope_of_similarInteraction {key : EntityKey}
    (h : r.similarInteraction v text = .found key) : (Intent.interact key.id).InScope v := by
  have hstep : ∀ acc (d x : Interaction), x ∈ (r.consider text acc d).1 → x ∈ acc.1 ∨ x = d := by
    intro acc d x hx
    unfold consider at hx
    dsimp only at hx
    split at hx
    · exact .inr (List.mem_singleton.1 hx)
    · split at hx
      · exact (List.mem_append.1 hx).imp_right List.mem_singleton.1
      · exact .inl hx
  unfold similarInteraction at h
  split at h
  · cases h
  · rename_i d hone
    cases h
    have hd := mem_of_mem_foldl hstep (l := v.offeredHere) (x := d) (by rw [hone]; simp)
    exact View.inScope_of_offeredHere (hd.resolve_left List.not_mem_nil)
  · cases h

theorem inScope_of_readCommand {command : Command}
    (h : r.readCommand v command = some (.intent i)) : i.InScope v := by
  unfold readCommand at h
  cases command with
  | move d =>
    dsimp only at h
    split at h
    · rename_i e he
      cases h
      exact View.inScope_of_exitTowards? he
    · cases h
  | go target =>
    obtain ⟨key, hfound, rfl⟩ := Lookup.read_eq_intent_iff.1 (Option.some.inj h)
    obtain ⟨-, hkind⟩ := Matching.mem_of_find_eq_found hfound
    have hexit : key = .exit key.id := by
      obtain ⟨kind, id⟩ := key
      simpa using hkind
    show v.InScope (.exit key.id)
    rw [← hexit]
    exact Matching.inScope_of_find hfound
  | look target =>
    cases target with
    | none =>
      cases h
      exact nofun
    | some target =>
      obtain ⟨key, hfound, rfl⟩ := Lookup.read_eq_intent_iff.1 (Option.some.inj h)
      rintro _ ⟨⟩
      exact Matching.inScope_of_find hfound
  | take | drop | talk =>
    obtain ⟨key, hfound, rfl⟩ := Lookup.read_eq_intent_iff.1 (Option.some.inj h)
    exact Matching.inScope_of_find hfound
  | use item target =>
    dsimp only at h
    split at h
    · rename_i key hfound
      cases h
      exact ⟨Matching.inScope_of_find hfound, nofun⟩
    · rename_i key target hfound
      obtain ⟨on, hon, rfl⟩ := Lookup.read_eq_intent_iff.1 (Option.some.inj h)
      refine ⟨Matching.inScope_of_find hfound, ?_⟩
      rintro _ ⟨⟩
      exact Matching.inScope_of_find hon
    · obtain ⟨key, hfound, rfl⟩ := Lookup.read_eq_intent_iff.1 (Option.some.inj h)
      exact ⟨Matching.inScope_of_find hfound, nofun⟩
  | incomplete | unknown => cases h

theorem inScope_of_read (h : r.read v text = .settled (.intent i)) : i.InScope v := by
  unfold read at h
  dsimp only at h
  split at h
  · cases h
    exact nofun
  split at h
  · rename_i hexact
    cases h
    exact View.inScope_of_exactInteraction? hexact
  split at h
  case h_2 hread =>
    exact inScope_of_readCommand (hread.trans (congrArg some (Reading.settled.inj h)))
  -- What no command settles is read on in the same way, whatever there is to fall back on.
  all_goals
    split at h
    · rename_i hexit
      cases h
      exact View.inScope_of_exitByPhrase? hexit
    · split at h
      · rename_i hsimilar
        cases h
        exact inScope_of_similarInteraction hsimilar
      · cases h
      · cases h

/-- An intent that is read off a line without a companion is about what is in scope, whatever counts
as similar and from where on. -/
theorem interpret_in_scope (hr : r.companion = none) (h : r.interpret v text = .intent i) :
    i.InScope v := by
  unfold interpret at h
  rw [hr] at h
  split at h
  · rename_i hread
    exact inScope_of_read (hread.trans (congrArg _ h))
  · cases h

end Interpreter

/-- A market and a mill, with a loaf in each. -/
def marketDoc : WorldDocument where
  world := some { title := "Market" }
  start := some { location := "market" }
  locations := [{ id := "market", name := "Market" }, { id := "mill", name := "Mill" }]
  items := [{ id := "basket", name := "basket", location := some "market" },
    { id := "rye", name := "loaf", location := some "mill" },
    { id := "wheat", name := "loaf", location := some "market" }]
  acts := [{ id := "day", locations := ["market", "mill"] }]

def market : Catalog := .draft marketDoc

/-- With the basket in hand a loaf is the one that lies here. -/
theorem wheat_put_in_basket :
    let s := (Line.play market { input := "take basket" } (.initial market)).state
    let v := View.mk market s
    let r := ({} : Settings).interpreter none
    let i := Intent.use (.item "basket") (some (.item "wheat"))
    market.Accepted ∧ Reachable market s ∧ r.companion = none ∧
      r.interpret v "use basket on loaf" = .intent i ∧ i.InScope v ∧
      v.placement "basket" = .carried ∧ v.placement "wheat" = .location v.state.location ∧
      ¬v.InScope (.item "rye") := by
  intro s v r i
  have hs : Reachable market s := .turn .refl _
  have halone : r.companion = none := rfl
  have hread : r.interpret v "use basket on loaf" = .intent i := by decide +kernel
  have hplacements : v.placement "basket" = .carried ∧
      v.placement "wheat" = .location v.state.location ∧ v.placement "rye" = .location "mill" ∧
      v.state.location ≠ "mill" := by decide +kernel
  obtain ⟨hbasket, hwheat, hrye, hhere⟩ := hplacements
  refine ⟨⟨marketDoc, Catalog.ofDocument_eq_ok_iff.2 ⟨by decide, rfl⟩⟩, hs, halone, hread,
    Interpreter.interpret_in_scope halone hread, hbasket, hwheat, ?_⟩
  rintro (h | h)
  · exact hhere (Placement.location.inj (hrye.symm.trans h)).symm
  · cases hrye.symm.trans h

end Storyworld
