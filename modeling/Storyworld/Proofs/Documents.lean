import Storyworld.Loading
import Storyworld.Proofs.Nesting

/-!
# Written documents

What a world document is written as, and what is read of it. Conditions, effects and definitions are
read back as they were (`ofDatum?_toDatum` of each), a definition field by field
(`Datum.define_record`); only a target with an empty identifier is not, and no document that was
read has one (`WorldDocument.namesTargets_of_ofDatum?`). What is written is no deeper than what was
read (`WorldDocument.writable`), so that the text of a document is read back too.
-/

namespace Storyworld

open Datum

namespace Datum

variable {fmt : Format} {α : Type}

/-- A record is read back field by field. -/
theorem fields?_record (fmt : Format) (st : Strictness) (fields : List (String × Datum))
    (h : (fields.map (·.1)).Nodup) :
    (record fields).fields? fmt st (fields.map (·.1)) = some (fields.map (some ·.2)) := by
  have hnames : (fields.map fun f => (f.1, some f.2)).map (·.1) = fields.map (·.1) := by
    rw [List.map_map]
    rfl
  have hpresent : present (fields.map fun f => (f.1, some f.2)) = fields := by
    simp [present]
  have hread := fields?_present fmt st (hnames ▸ h)
  rwa [hpresent, hnames, List.map_map] at hread

theorem define_record {names : List String} {build : List (Option Datum) → Option α}
    {fields : List (String × Datum)} (hnames : fields.map (·.1) = names) (h : names.Nodup) :
    define fmt names build (record fields) = build (fields.map (some ·.2)) := by
  subst hnames
  unfold define
  rw [fields?_record fmt .strict fields h, Option.bind_some]

theorem define_eq_some {names : List String} {build : List (Option Datum) → Option α}
    {x : Datum} {a : α} (h : define fmt names build x = some a) :
    ∃ vs, build vs = some a ∧ ∀ n, x.Nests (n + 1) → ∀ v ∈ vs, ∀ y ∈ v, y.Nests n := by
  obtain ⟨vs, hvs, hbuild⟩ := Option.bind_eq_some_iff.1 h
  refine ⟨vs, hbuild, fun n hx => ?_⟩
  obtain ⟨m, hm, hall⟩ := fields?_nests hvs hx
  cases hm
  exact hall

@[simp] theorem orElse_some (default : α) (read : Datum → Option α) (d : Datum) :
    orElse default read (some d) = read d := rfl

theorem maybe_ofOption {read : Datum → Option α} {write : α → Datum} {o : Option α}
    (h : ∀ a ∈ o, read (write a) = some a ∧ write a ≠ null) :
    maybe read (some (ofOption write o)) = some o := by
  cases o with
  | none => rfl
  | some a =>
    obtain ⟨hread, hnull⟩ := h a rfl
    show (write a).nullable? read = some (some a)
    cases hw : write a with
    | null => exact absurd hw hnull
    | _ => simp [nullable?, ← hw, hread]

theorem maybe_eq_some_some {read : Datum → Option α} {v : Option Datum} {a : α}
    (h : maybe read v = some (some a)) : ∃ y, v = some y ∧ read y = some a := by
  cases v with
  | none => cases h
  | some y =>
    refine ⟨y, rfl, ?_⟩
    cases y with
    | null => cases h
    | _ => simpa [maybe, nullable?] using h

theorem mem_of_mapM {β : Type} {f : α → Option β} {as : List α} {bs : List β}
    (h : as.mapM f = some bs) {b : β} (hb : b ∈ bs) : ∃ a ∈ as, f a = some b := by
  induction as generalizing bs with
  | nil =>
    cases h
    cases hb
  | cons a as ih =>
    rw [List.mapM_cons] at h
    simp only [Option.bind_eq_bind, Option.bind_eq_some_iff] at h
    obtain ⟨b', hb', bs', hbs', h⟩ := h
    cases h
    rcases List.mem_cons.1 hb with rfl | hb
    · exact ⟨a, .head _, hb'⟩
    · obtain ⟨a', ha', hread⟩ := ih hbs' hb
      exact ⟨a', .tail _ ha', hread⟩

@[simp] theorem text?_text (s : String) : (text s).text? = some s := rfl

@[simp] theorem bool?_bool (b : Bool) : (bool b).bool? = some b := rfl

@[simp] theorem textField_text (s : String) : textField (some (text s)) = some s := rfl

@[simp] theorem boolField_bool (b : Bool) : boolField (some (bool b)) = some b := rfl

@[simp] theorem maybeText_ofMaybeText (o : Option String) :
    maybeText (some (ofMaybeText o)) = some o :=
  maybe_ofOption fun _ _ => ⟨rfl, nofun⟩

@[simp] theorem textsField_ofTexts (ss : List String) : textsField (some (ofTexts ss)) = some ss :=
  texts?_ofTexts ss

end Datum

/-! ### Conditions and effects -/

variable {fmt : Format}

theorem Comparison.ofDatum?_sign (c : Comparison) : ofDatum? fmt (.text c.sign) = some c :=
  c.ofSign?_sign

theorem Atom.ofDatum?_toDatum (a : Atom) :
    Condition.ofDatum? fmt a.toDatum = some (.atom a) := by
  cases a with
  | flagEquals name value =>
    have hfields := fields?_record fmt fmt.choiceStrictness
      [("flag", .text name), ("value", value.toDatum)] (by decide : ["flag", "value"].Nodup)
    dsimp only [List.map] at hfields
    simp [toDatum, choice, Condition.ofDatum?, ofField?, hfields, need_some, text?,
      FlagValue.ofDatum?_toDatum]
  | itemAt item location =>
    have hfields := fields?_record fmt fmt.choiceStrictness
      [("item", .text item), ("location", .text location)]
      (by decide : ["item", "location"].Nodup)
    dsimp only [List.map] at hfields
    simp [toDatum, choice, Condition.ofDatum?, ofField?, hfields, need_some, text?]
  | counter p n cmp x =>
    have hfields := fields?_record fmt fmt.choiceStrictness
      [("character", .text p), ("counter", .text n), ("cmp", .text cmp.sign),
        ("value", ofCount x)]
      (by decide : ["character", "counter", "cmp", "value"].Nodup)
    dsimp only [List.map] at hfields
    simp [toDatum, choice, Condition.ofDatum?, ofField?, hfields, need_some,
      Comparison.ofDatum?_sign]
  | _ => rfl

namespace Condition

mutual
/-- A condition is read back, however deep it nests. -/
@[simp] theorem ofDatum?_toDatum : (c : Condition) → ofDatum? fmt c.toDatum = some c
  | always => rfl
  | atom a => Atom.ofDatum?_toDatum a
  | not c => by simp [toDatum, choice, ofDatum?, ofDatum?_toDatum c]
  | all cs => by simp [toDatum, choice, ofDatum?, ofList?, ofItems?_toItems cs]
  | any cs => by simp [toDatum, choice, ofDatum?, ofList?, ofItems?_toItems cs]
theorem ofItems?_toItems : (cs : List Condition) → ofItems? fmt (toItems cs) = some cs
  | [] => rfl
  | c :: cs => by simp [toItems, ofItems?, ofDatum?_toDatum c, ofItems?_toItems cs]
end

theorem toDatum_ne_null (c : Condition) : c.toDatum ≠ .null := by
  cases c with
  | atom a => cases a <;> nofun
  | _ => nofun

@[simp] theorem maybe_ofOption_toDatum (c : Option Condition) :
    maybe (ofDatum? fmt) (some (ofOption toDatum c)) = some c :=
  maybe_ofOption fun c _ => ⟨ofDatum?_toDatum c, toDatum_ne_null c⟩

end Condition

namespace Effect

theorem pair?_record {first second : String} {build : String → String → Effect}
    (h : [first, second].Nodup) (a b : String) :
    pair? fmt first second build (.record [(first, .text a), (second, .text b)]) =
      some (build a b) := by
  have hfields := fields?_record fmt fmt.choiceStrictness
    [(first, .text a), (second, .text b)] h
  dsimp only [List.map] at hfields
  simp [pair?, hfields, need_some, text?]

theorem counted?_record {count : String} {build : String → String → Count → Effect}
    (h : ["character", "counter", count].Nodup) (p n : String) (x : Count) :
    counted? fmt count build
      (.record [("character", .text p), ("counter", .text n), (count, ofCount x)]) =
        some (build p n x) := by
  have hfields := fields?_record fmt fmt.choiceStrictness
    [("character", .text p), ("counter", .text n), (count, ofCount x)] h
  dsimp only [List.map] at hfields
  simp [counted?, hfields, need_some, text?]

theorem ofDatum?_toDatum (e : Effect) : ofDatum? fmt e.toDatum = some e := by
  cases e with
  | setFlag flag x =>
    have hfields := fields?_record fmt fmt.choiceStrictness
      [("flag", .text flag), ("value", x.toDatum)] (by decide : ["flag", "value"].Nodup)
    dsimp only [List.map] at hfields
    simp [toDatum, choice, ofDatum?, ofField?, hfields, need_some, orElse_some, text?,
      FlagValue.ofDatum?_toDatum]
  | placeItem | handItem | moveCharacter => exact pair?_record (by decide) _ _
  | adjustCounter | setCounter => exact counted?_record (by decide) _ _ _
  | lockExit x b | hideExit x b => cases b <;> rfl
  | describe key t =>
    have hfields := fields?_record fmt fmt.choiceStrictness
      [("kind", key.kind.toDatum), ("id", .text key.id), ("text", .text t)]
      (by decide : ["kind", "id", "text"].Nodup)
    dsimp only [List.map] at hfields
    have hkind : EntityKind.ofDatum? fmt key.kind.toDatum = some key.kind := key.kind.ofName?_name
    simp [toDatum, choice, ofDatum?, ofField?, hfields, need_some, text?, hkind]
  | _ => rfl

@[simp] theorem list?_ofList_toDatum (es : List Effect) :
    (ofList toDatum es).list? (ofDatum? fmt) = some es :=
  list?_ofList ofDatum?_toDatum es

end Effect

/-! ### Definitions -/

theorem WorldInfo.ofDatum?_toDatum (d : WorldInfo) : ofDatum? fmt d.toDatum = some d :=
  define_record (by rfl) (by decide)

theorem Start.ofDatum?_toDatum (d : Start) : ofDatum? fmt d.toDatum = some d := by
  refine (define_record (by rfl) (by decide)).trans ?_
  simp [need_some]

theorem Location.ofDatum?_toDatum (d : Location) : ofDatum? fmt d.toDatum = some d := by
  refine (define_record (by rfl) (by decide)).trans ?_
  simp [need_some]

theorem Item.ofDatum?_toDatum (d : Item) : ofDatum? fmt d.toDatum = some d := by
  refine (define_record (by rfl) (by decide)).trans ?_
  simp [need_some]

theorem Character.ofDatum?_toDatum (d : Character) : ofDatum? fmt d.toDatum = some d := by
  have hcounters : (ofMap ofCount d.counters).map? count? = some d.counters :=
    map?_ofMap count?_ofCount d.counters
  refine (define_record (by rfl) (by decide)).trans ?_
  simp [need_some, hcounters]

theorem Exit.ofDatum?_toDatum (d : Exit) : ofDatum? fmt d.toDatum = some d := by
  refine (define_record (by rfl) (by decide)).trans ?_
  simp [need_some]

theorem Beat.ofDatum?_toDatum (d : Beat) : ofDatum? fmt d.toDatum = some d := by
  refine (define_record (by rfl) (by decide)).trans ?_
  simp [need_some]

theorem Spoke.ofDatum?_toDatum (d : Spoke) : ofDatum? fmt d.toDatum = some d := by
  refine (define_record (by rfl) (by decide)).trans ?_
  simp [need_some]

theorem Act.ofDatum?_toDatum (d : Act) : ofDatum? fmt d.toDatum = some d := by
  have hmode : choice? fmt ActMode.all ActMode.name (.text d.mode.name) = some d.mode := by
    cases d.mode <;> rfl
  refine (define_record (by rfl) (by decide)).trans ?_
  simp [need_some, hmode]

theorem Victory.ofDatum?_toDatum (d : Victory) : ofDatum? fmt d.toDatum = some d := by
  refine (define_record (by rfl) (by decide)).trans ?_
  simp [need_some]

theorem RenameTable.ofDatum?_toDatum (t : RenameTable) : ofDatum? fmt t.toDatum = some t := by
  have hmap : ∀ m : SortedMap String String, (ofMap .text m).map? text? = some m :=
    map?_ofMap fun _ => rfl
  refine (define_record (by rfl) (by decide)).trans ?_
  simp [hmap]

theorem MigrationRule.ofDatum?_toDatum (r : MigrationRule) : ofDatum? fmt r.toDatum = some r := by
  refine (define_record (by rfl) (by decide)).trans ?_
  simp [need_some, RenameTable.ofDatum?_toDatum]

/-- An interaction is read back unless its target has an empty identifier. -/
theorem Interaction.ofDatum?_toDatum {d : Interaction} (h : ∀ k ∈ d.target, k.id ≠ "") :
    ofDatum? fmt d.toDatum = some d := by
  have hkind : choice? fmt InteractionKind.all InteractionKind.name (.text d.kind.name) =
      some d.kind := by
    cases d.kind <;> rfl
  have htarget : maybe EntityKey.ofDatum? (some (ofOption EntityKey.toDatum d.target)) =
      some d.target := by
    refine maybe_ofOption fun k hk => ⟨?_, nofun⟩
    show EntityKey.ofText? k.text = some k
    rw [EntityKey.ofText?_text, if_neg (h k hk)]
  refine (define_record (by rfl) (by decide)).trans ?_
  simp [need_some, hkind, htarget]

theorem EntityKey.id_ne_of_ofText? {s : String} {k : EntityKey} (h : ofText? s = some k) :
    k.id ≠ "" := by
  unfold ofText? at h
  cases hparse : parse s with
  | error e =>
    rw [hparse] at h
    cases h
  | ok k' =>
    rw [hparse] at h
    cases h
    exact (text_of_parse hparse).2

theorem Interaction.target_of_ofDatum? {x : Datum} {d : Interaction} (h : ofDatum? fmt x = some d) :
    ∀ k ∈ d.target, k.id ≠ "" := by
  obtain ⟨vs, h, -⟩ := define_eq_some h
  split at h
  · simp only [Option.bind_eq_bind, Option.bind_eq_some_iff] at h
    obtain ⟨_, -, _, -, _, -, _, -, _, htarget, _, -, _, -, _, -, _, -, _, -, _, -, _, -, h⟩ := h
    cases h
    rintro k rfl
    obtain ⟨y, -, hread⟩ := maybe_eq_some_some htarget
    obtain ⟨s, -, hs⟩ := Option.bind_eq_some_iff.1 hread
    exact EntityKey.id_ne_of_ofText? hs
  · cases h

/-! ### Depth -/

open Json

namespace Json

variable {n : Nat}

theorem writable_list {items : List Datum} :
    Writable (n + 1) (.list items) ↔ ∀ d ∈ items, Writable n d :=
  ⟨fun | .list h => h, .list⟩

theorem writable_record {fields : List (String × Datum)} :
    Writable (n + 1) (.record fields) ↔ ∀ f ∈ fields, Writable n f.2 :=
  ⟨fun | .record h => h, .record⟩

@[simp] theorem writable_text (s : String) : Writable n (.text s) := .text s

@[simp] theorem writable_bool (b : Bool) : Writable n (.bool b) := .bool b

@[simp] theorem writable_ofMaybeText (o : Option String) : Writable n (ofMaybeText o) := by
  cases o with
  | none => exact .null
  | some s => exact .text s

theorem writable_ofOption {α : Type} {write : α → Datum} {o : Option α}
    (h : ∀ a ∈ o, Writable n (write a)) : Writable n (ofOption write o) := by
  cases o with
  | none => exact .null
  | some a => exact h a rfl

theorem writable_ofList {α : Type} {write : α → Datum} {as : List α}
    (h : ∀ a ∈ as, Writable n (write a)) : Writable (n + 1) (ofList write as) := by
  refine .list fun d hd => ?_
  obtain ⟨a, ha, rfl⟩ := List.mem_map.1 hd
  exact h a ha

theorem writable_effect (e : Effect) : Writable (n + 2) e.toDatum := by
  cases e with
  | setFlag | placeItem | handItem | moveCharacter | adjustCounter | setCounter | describe =>
    exact writable_choice
      (.record (by simp [EntityKind.toDatum, writable_flagValue, writable_ofCount]))
  | lockExit x b | hideExit x b => cases b <;> exact writable_choice (.text _)
  | _ => exact writable_choice (.text _)

theorem writable_maybe_condition {v : Option Datum} {o : Option Condition}
    (h : maybe (Condition.ofDatum? fmt) v = some o) (hv : ∀ y ∈ v, y.Nests n) :
    Writable n (ofOption Condition.toDatum o) := by
  refine writable_ofOption ?_
  rintro c rfl
  obtain ⟨y, rfl, hread⟩ := maybe_eq_some_some h
  exact writable_condition y hread (hv y rfl)

theorem writable_need_condition {v : Option Datum} {c : Condition}
    (h : need (Condition.ofDatum? fmt) v = some c) (hv : ∀ y ∈ v, y.Nests n) :
    Writable n c.toDatum := by
  obtain ⟨y, rfl, hread⟩ := Option.bind_eq_some_iff.1 h
  exact writable_condition y hread (hv y rfl)

theorem writable_orElse_condition {v : Option Datum} {c : Condition}
    (h : orElse .always (Condition.ofDatum? fmt) v = some c) (hv : ∀ y ∈ v, y.Nests n) :
    Writable n c.toDatum := by
  cases v with
  | none =>
    cases h
    exact .text _
  | some y => exact writable_condition y h (hv y rfl)

end Json

theorem WorldInfo.writable {n : Nat} (d : WorldInfo) : Writable (n + 1) d.toDatum :=
  .record (by simp)

theorem Start.writable {n : Nat} (d : Start) : Writable (n + 2) d.toDatum :=
  .record (by simp [writable_ofTexts])

theorem Location.writable {n : Nat} (d : Location) : Writable (n + 2) d.toDatum :=
  .record (by simp [writable_ofTexts])

theorem Item.writable {n : Nat} (d : Item) : Writable (n + 2) d.toDatum :=
  .record (by simp [writable_ofTexts])

theorem Character.writable {n : Nat} (d : Character) : Writable (n + 2) d.toDatum :=
  .record (by simp [writable_ofTexts, writable_ofMap, writable_ofCount])

theorem RenameTable.writable {n : Nat} (t : RenameTable) : Writable (n + 2) t.toDatum :=
  .record (by simp [writable_ofMap])

theorem MigrationRule.writable {n : Nat} (r : MigrationRule) : Writable (n + 3) r.toDatum :=
  .record (by simp [writable_ofTexts, RenameTable.writable])

section

variable {n : Nat} {x : Datum}

theorem Exit.writable {d : Exit} (h : ofDatum? fmt x = some d) (hx : x.Nests (n + 4)) :
    Writable (n + 4) d.toDatum := by
  obtain ⟨vs, h, hvs⟩ := define_eq_some h
  have hvs := hvs _ hx
  split at h
  · simp only [Option.bind_eq_bind, Option.bind_eq_some_iff] at h
    obtain ⟨_, -, _, -, _, -, _, -, _, -, _, -, _, -, _, -, _, hvisible, _, hopen, _, -, _, -, h⟩ :=
      h
    cases h
    have hvisible := writable_maybe_condition hvisible (hvs _ (by simp))
    have hopen := writable_maybe_condition hopen (hvs _ (by simp))
    exact .record (by simp [writable_ofTexts, hvisible, hopen])
  · cases h

theorem Interaction.writable {d : Interaction} (h : ofDatum? fmt x = some d)
    (hx : x.Nests (n + 4)) : Writable (n + 4) d.toDatum := by
  obtain ⟨vs, h, hvs⟩ := define_eq_some h
  have hvs := hvs _ hx
  split at h
  · simp only [Option.bind_eq_bind, Option.bind_eq_some_iff] at h
    obtain ⟨_, -, _, -, _, -, _, -, _, -, _, -, _, hrequires, _, -, _, -, _, -, _, -, _, -, h⟩ := h
    cases h
    have hrequires := writable_maybe_condition hrequires (hvs _ (by simp))
    have htarget : ∀ o, Writable (n + 3) (ofOption EntityKey.toDatum o) := fun o =>
      writable_ofOption fun k _ => .text k.text
    exact .record (by simp [writable_ofTexts, hrequires, htarget, writable_ofList, writable_effect])
  · cases h

theorem Beat.writable {d : Beat} (h : ofDatum? fmt x = some d) (hx : x.Nests (n + 4)) :
    Writable (n + 4) d.toDatum := by
  obtain ⟨vs, h, hvs⟩ := define_eq_some h
  have hvs := hvs _ hx
  split at h
  · simp only [Option.bind_eq_bind, Option.bind_eq_some_iff] at h
    obtain ⟨_, -, _, -, _, htrigger, _, -, _, -, _, -, h⟩ := h
    cases h
    have htrigger := writable_orElse_condition htrigger (hvs _ (by simp))
    exact .record (by simp [htrigger, writable_ofList, writable_effect])
  · cases h

theorem Spoke.writable {d : Spoke} (h : ofDatum? fmt x = some d) (hx : x.Nests (n + 4)) :
    Writable (n + 4) d.toDatum := by
  obtain ⟨vs, h, hvs⟩ := define_eq_some h
  have hvs := hvs _ hx
  split at h
  · simp only [Option.bind_eq_bind, Option.bind_eq_some_iff] at h
    obtain ⟨_, -, _, -, _, -, _, hcondition, h⟩ := h
    cases h
    have hcondition := writable_need_condition hcondition (hvs _ (by simp))
    exact .record (by simp [hcondition])
  · cases h

theorem Act.writable {d : Act} (h : ofDatum? fmt x = some d) (hx : x.Nests (n + 4)) :
    Writable (n + 4) d.toDatum := by
  obtain ⟨vs, h, hvs⟩ := define_eq_some h
  have hvs := hvs _ hx
  split at h
  · simp only [Option.bind_eq_bind, Option.bind_eq_some_iff] at h
    obtain ⟨_, -, _, -, _, -, _, -, _, -, _, -, _, -, _, hgate, _, -, _, -, h⟩ := h
    cases h
    have hgate := writable_maybe_condition hgate (hvs _ (by simp))
    exact .record (by simp [writable_ofTexts, hgate])
  · cases h

theorem Victory.writable {d : Victory} (h : ofDatum? fmt x = some d) (hx : x.Nests (n + 4)) :
    Writable (n + 4) d.toDatum := by
  obtain ⟨vs, h, hvs⟩ := define_eq_some h
  have hvs := hvs _ hx
  split at h
  · simp only [Option.bind_eq_bind, Option.bind_eq_some_iff] at h
    obtain ⟨_, -, _, hcondition, _, -, h⟩ := h
    cases h
    have hcondition := writable_need_condition hcondition (hvs _ (by simp))
    exact .record (by simp [hcondition])
  · cases h

end

namespace WorldDocument

theorem mem_of_sectionOf {α : Type} {read : Datum → Option α} {v : Option Datum} {as : List α}
    (h : sectionOf read v = some as) {a : α} (ha : a ∈ as) :
    ∃ items, v = some (.list items) ∧ ∃ y ∈ items, read y = some a := by
  cases v with
  | none =>
    cases h
    cases ha
  | some x =>
    cases x with
    | list items => exact ⟨items, rfl, mem_of_mapM h ha⟩
    | _ => cases h

@[simp] theorem sectionOf_ofList {α : Type} {read : Datum → Option α} {write : α → Datum}
    {as : List α} (h : ∀ a ∈ as, read (write a) = some a) :
    sectionOf read (some (ofList write as)) = some as := by
  have has := mapM_map_some (f := id) h
  rwa [List.map_id] at has

/-- The target of every interaction has an identifier. -/
def NamesTargets (doc : WorldDocument) : Prop :=
  ∀ d ∈ doc.interactions, ∀ k ∈ d.target, k.id ≠ ""

theorem writable_section {α : Type} {n : Nat} {read : Datum → Option α} {write : α → Datum}
    {v : Option Datum} {as : List α} (h : sectionOf read v = some as)
    (hv : ∀ y ∈ v, y.Nests (n + 1))
    (hread : ∀ x a, read x = some a → x.Nests n → Writable n (write a)) :
    Writable (n + 1) (ofList write as) := by
  refine writable_ofList fun a ha => ?_
  obtain ⟨items, rfl, y, hy, hay⟩ := mem_of_sectionOf h ha
  cases hv _ rfl with
  | list hitems => exact hread y a hay (hitems y hy)

/-- A document is written no deeper than what it was read of, unless that is flat. -/
theorem writable {n : Nat} {x : Datum} {doc : WorldDocument} (h : ofDatum? fmt x = some doc)
    (hx : x.Nests (n + 6)) : Writable (n + 6) doc.toDatum := by
  obtain ⟨vs, h, hvs⟩ := define_eq_some h
  have hvs := hvs _ hx
  split at h
  · simp only [Option.bind_eq_bind, Option.bind_eq_some_iff] at h
    obtain ⟨_, -, _, -, _, -, _, -, _, -, _, hexits, _, hinteractions, _, hbeats, _, hspokes, _,
      hacts, _, hvictory, _, -, h⟩ := h
    cases h
    have hexits := writable_section hexits (hvs _ (by simp)) fun _ _ => Exit.writable
    have hinteractions :=
      writable_section hinteractions (hvs _ (by simp)) fun _ _ => Interaction.writable
    have hbeats := writable_section hbeats (hvs _ (by simp)) fun _ _ => Beat.writable
    have hspokes := writable_section hspokes (hvs _ (by simp)) fun _ _ => Spoke.writable
    have hacts := writable_section hacts (hvs _ (by simp)) fun _ _ => Act.writable
    have hvictory := writable_section hvictory (hvs _ (by simp)) fun _ _ => Victory.writable
    refine .record ?_
    simp [writable_ofOption, writable_ofList, WorldInfo.writable, Start.writable,
      Location.writable, Item.writable, Character.writable, MigrationRule.writable, hexits,
      hinteractions, hbeats, hspokes, hacts, hvictory]
  · cases h

theorem namesTargets_of_ofDatum? {x : Datum} {doc : WorldDocument} (h : ofDatum? fmt x = some doc) :
    doc.NamesTargets := by
  obtain ⟨vs, h, -⟩ := define_eq_some h
  split at h
  · simp only [Option.bind_eq_bind, Option.bind_eq_some_iff] at h
    obtain ⟨_, -, _, -, _, -, _, -, _, -, _, -, _, hread, _, -, _, -, _, -, _, -, _, -, h⟩ := h
    cases h
    intro d hd
    obtain ⟨_, -, x, -, hx⟩ := mem_of_sectionOf hread hd
    exact Interaction.target_of_ofDatum? hx
  · cases h

theorem ofDatum?_toDatum {doc : WorldDocument} (h : doc.NamesTargets) :
    ofDatum? fmt doc.toDatum = some doc := by
  have hworld : maybe (WorldInfo.ofDatum? fmt) (some (ofOption WorldInfo.toDatum doc.world)) =
      some doc.world := maybe_ofOption fun d _ => ⟨d.ofDatum?_toDatum, nofun⟩
  have hstart : maybe (Start.ofDatum? fmt) (some (ofOption Start.toDatum doc.start)) =
      some doc.start := maybe_ofOption fun d _ => ⟨d.ofDatum?_toDatum, nofun⟩
  have hinteractions : sectionOf (Interaction.ofDatum? fmt)
      (some (ofList Interaction.toDatum doc.interactions)) = some doc.interactions :=
    sectionOf_ofList fun d hd => Interaction.ofDatum?_toDatum (h d hd)
  refine (define_record (by rfl) (by decide)).trans ?_
  simp [hworld, hstart, Location.ofDatum?_toDatum, Item.ofDatum?_toDatum,
    Character.ofDatum?_toDatum, Exit.ofDatum?_toDatum, Beat.ofDatum?_toDatum,
    Spoke.ofDatum?_toDatum, Act.ofDatum?_toDatum, Victory.ofDatum?_toDatum,
    MigrationRule.ofDatum?_toDatum, hinteractions]

/-- A document that was read comes back from what it is written as, as data and as a text. Any
document comes back exactly if the target of every interaction has an identifier; conditions and
effects always do, however deep they nest. -/
theorem read_comes_back (doc : WorldDocument) :
    (∀ fmt x, ofDatum? fmt x = some doc → ofDatum? .json doc.toDatum = some doc) ∧
    (∀ s, parse? .json s = some doc → parse? .json (Json.pretty doc.toDatum) = some doc) ∧
    (ofDatum? .json doc.toDatum = some doc ↔ doc.NamesTargets) ∧
    (∀ c : Condition, Condition.ofDatum? .json c.toDatum = some c) ∧
    ∀ e : Effect, Effect.ofDatum? .json e.toDatum = some e := by
  refine ⟨fun fmt x h => ofDatum?_toDatum (namesTargets_of_ofDatum? h), fun s h => ?_,
    ⟨namesTargets_of_ofDatum?, ofDatum?_toDatum⟩, Condition.ofDatum?_toDatum,
    Effect.ofDatum?_toDatum⟩
  obtain ⟨x, hx, hread⟩ := Option.bind_eq_some_iff.1 h
  have hwritable : Json.Writable Json.depthLimit doc.toDatum :=
    writable (n := 121) hread (Json.parse?_nests hx)
  show (Json.parse? (Json.pretty doc.toDatum)).bind (ofDatum? .json) = some doc
  rw [Json.parse?_pretty hwritable]
  exact ofDatum?_toDatum (namesTargets_of_ofDatum? hread)

/-- A document with much left to its defaults, in several spellings. -/
def sketch : Datum :=
  .record [
    ("start", .list [.text "cave"]),
    ("items", .list [.record [("name", .text "Lamp"), ("id", .text "lamp"), ("holder", .null)]]),
    ("exits", .list [.record [("id", .text "up"), ("from", .text "cave"), ("to", .text "hill"),
      ("open_when", .record [("not", .record [("all", .list [
        .record [("flag_equals", .list [.text "seal", .text "true"])],
        .record [("any", .list [.record [("always", .null)], .text "always"])],
        .record [("counter", .record [("value", .int (-3)), ("counter", .text "mood"),
          ("character", .text "cat"), ("scale", .text "unknown")])]])])])]]),
    ("interactions", .list [.record [("id", .text "rub"), ("kind", .record [("use", .null)]),
      ("target", .text "item:lamp:"),
      ("effects", .list [.record [("set_flag", .record [("flag", .text "lit")])],
        .record [("describe", .list [.text "exit", .text "up", .text "Bright."])]])]]),
    ("beats", .list [.record [("id", .text "dusk")]])]

def sketched : WorldDocument where
  start := some { location := "cave" }
  items := [{ id := "lamp", name := "Lamp" }]
  exits := [{
    id := "up", origin := "cave", destination := "hill"
    openWhen := some (.not (.all [.atom (.flagEquals "seal" (.text "true")),
      .any [.always, .always], .atom (.counter "cat" "mood" .ge (-3))])) }]
  interactions := [{
    id := "rub", kind := .use, target := some (.item "lamp:")
    effects := [.setFlag "lit" (.bool true), .describe (.exit "up") "Bright."] }]
  beats := [{ id := "dusk" }]

theorem writable_sketch {n : Nat} : Json.Writable (n + 9) sketch := by
  have hcount : ∀ m, Json.Writable m (.int (-3)) := fun _ => Json.writable_ofCount (-3)
  simp [sketch, Json.writable_list, Json.writable_record, Json.Writable.null, hcount]

theorem sketch_comes_back :
    ofDatum? .json sketch = some sketched ∧ ofDatum? .json sketched.toDatum = some sketched ∧
    parse? .json (Json.pretty sketch) = some sketched ∧
    parse? .json (Json.pretty sketched.toDatum) = some sketched := by
  obtain ⟨hdata, htext, -⟩ := read_comes_back sketched
  have hread : ofDatum? .json sketch = some sketched := by rfl
  have hparse : parse? .json (Json.pretty sketch) = some sketched := by
    show (Json.parse? (Json.pretty sketch)).bind (ofDatum? .json) = some sketched
    rw [Json.parse?_pretty (writable_sketch (n := 118)), Option.bind_some, hread]
  exact ⟨hread, hdata .json sketch hread, hparse, htext _ hparse⟩

end WorldDocument
end Storyworld
