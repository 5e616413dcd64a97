import Mathlib.Data.List.Nodup
import Storyworld.Codec.Save
import Storyworld.Proofs.JsonText
import Storyworld.Proofs.Stamps

/-!
# Written states

What `State.toDatum` and `Save.text` write, and what is read of it. A record whose fields may be
left out is read back field by field (`Datum.fields?_present`); the only part of a state that can be
lost is its overrides, whose keys are read back exactly when their identifiers are not empty
(`State.ofDatum?_toDatum`). So a save is read back exactly when no override is of an entity with an
empty identifier (`Save.parse?_text`).
-/

namespace Storyworld

namespace Datum

/-! ### Records -/

/-- The fields that are there, in order. -/
def present (fields : List (String × Option Datum)) : List (String × Datum) :=
  fields.filterMap fun f => f.2.map (f.1, ·)

theorem firsts_present_sublist (fields : List (String × Option Datum)) :
    ((present fields).map (·.1)).Sublist (fields.map (·.1)) := by
  induction fields with
  | nil => exact .slnil
  | cons f fs ih =>
    obtain ⟨name, value⟩ := f
    cases value with
    | none => exact ih.cons name
    | some d => exact ih.cons_cons name

theorem find?_present {fields : List (String × Option Datum)}
    (h : (fields.map (·.1)).Nodup) {name : String} {value : Option Datum}
    (hf : (name, value) ∈ fields) :
    ((present fields).find? (·.1 == name)).map (·.2) = value := by
  induction fields with
  | nil => cases hf
  | cons g gs ih =>
    obtain ⟨other, d⟩ := g
    obtain ⟨hother, hgs⟩ := List.nodup_cons.1 h
    rcases List.mem_cons.1 hf with hsame | hf
    · cases hsame
      cases value with
      | some d => simp [present]
      | none =>
        -- None of the other fields has the name.
        have hnone : (present gs).find? (·.1 == name) = none := by
          refine List.find?_eq_none.2 fun f hf hname => hother ?_
          have hmem := (firsts_present_sublist gs).subset (List.mem_map_of_mem hf)
          rwa [eq_of_beq hname] at hmem
        have htail : present ((name, none) :: gs) = present gs := rfl
        rw [htail, hnone]
        rfl
    · have hne : (other == name) = false := by
        refine beq_eq_false_iff_ne.2 ?_
        rintro rfl
        exact hother (List.mem_map.2 ⟨_, hf, rfl⟩)
      have hgo := ih hgs hf
      cases d with
      | none => exact hgo
      | some d =>
        have hcons : present ((other, some d) :: gs) = (other, d) :: present gs := rfl
        rw [hcons, List.find?_cons, hne]
        exact hgo

/-- A record is read back field by field, those included that are left out. -/
theorem fields?_present (fmt : Format) (st : Strictness) {fields : List (String × Option Datum)}
    (h : (fields.map (·.1)).Nodup) :
    (record (present fields)).fields? fmt st (fields.map (·.1)) = some (fields.map (·.2)) := by
  have hfirsts := firsts_present_sublist fields
  have honce : ∀ name, ((present fields).filter (·.1 == name)).length ≤ 1 := by
    intro name
    have hcount := List.nodup_iff_count_le_one.1 (hfirsts.nodup h) name
    rwa [List.count_eq_countP, List.countP_map, List.countP_eq_length_filter] at hcount
  have hknown : ((present fields).all fun f => (fields.map (·.1)).contains f.1) = true :=
    List.all_eq_true.2 fun f hf =>
      List.contains_iff_mem.2 (hfirsts.subset (List.mem_map_of_mem hf))
  have hvalues : (fields.map (·.1)).map
      (fun n => ((present fields).find? (·.1 == n)).map (·.2)) = fields.map (·.2) := by
    rw [List.map_map]
    exact List.map_congr_left fun f hf => find?_present h hf
  unfold fields?
  dsimp only
  rw [hknown, Bool.or_true, Bool.and_true, if_pos (by simp [honce]), hvalues]

theorem tagged?_record {tag t : String} {fields : List (String × Datum)}
    (h : ∀ f ∈ fields, f.1 ≠ tag) :
    (record ((tag, text t) :: fields)).tagged? tag = some (t, record fields) := by
  have hnone : fields.filter (·.1 == tag) = [] := by
    simpa using h
  have hall : fields.filter (·.1 != tag) = fields := by
    simpa using h
  simp [tagged?, hnone, hall]

/-! ### Entries -/

theorem mapM_eq_none {α β : Type} {f : α → Option β} {as : List α} {a : α} (ha : a ∈ as)
    (h : f a = none) : as.mapM f = none := by
  induction as with
  | nil => cases ha
  | cons b bs ih =>
    rw [List.mapM_cons]
    rcases List.mem_cons.1 ha with rfl | ha
    · rw [h]
      rfl
    · rw [ih ha]
      cases f b <;> rfl

theorem entries?_record {κ α : Type} {readKey : String → Option κ} {read : Datum → Option α}
    {writeKey : κ → String} {write : α → Datum} {es : List (κ × α)}
    (h : ∀ e ∈ es, readKey (writeKey e.1) = some e.1 ∧ read (write e.2) = some e.2) :
    (record (es.map fun e => (writeKey e.1, write e.2))).entries? readKey read = some es := by
  have hes : (es.map fun e => (writeKey e.1, write e.2)).mapM
      (fun f => do return (← readKey f.1, ← read f.2)) = some (es.map id) :=
    mapM_map_some fun e he => by simp [h e he]
  rwa [List.map_id] at hes

theorem map?_ofMap {α : Type} {read : Datum → Option α} {write : α → Datum}
    (h : ∀ a, read (write a) = some a) (m : SortedMap String α) :
    (ofMap write m).map? read = some m := by
  have hes : (record (m.toList.map fun e => (id e.1, write e.2))).entries? some read =
      some m.toList := entries?_record fun e _ => ⟨rfl, h e.2⟩
  show ((record (m.toList.map fun e => (id e.1, write e.2))).entries? some read).map .ofList =
    some m
  rw [hes, Option.map_some, SortedMap.ofList_toList]

theorem need_some {α : Type} (read : Datum → Option α) (d : Datum) :
    need read (some d) = read d := rfl

theorem bind_text? {α : Type} (read : String → Option α) (s : String) :
    (text s).text?.bind read = read s := rfl

theorem set?_ofSet (s : SortedSet String) : (ofSet s).set? = some s := by
  have htexts : (ofSet s).list? text? = some s.toList := texts?_ofTexts s.toList
  rw [set?, htexts, Option.map_some, SortedSet.ofList_toList]

theorem maybe_map {α : Type} {read : Datum → Option α} {write : α → Datum}
    (h : ∀ a, read (write a) = some a) (hnull : ∀ a, write a ≠ null) (o : Option α) :
    maybe read (o.map write) = some o := by
  cases o with
  | none => rfl
  | some a =>
    show (write a).nullable? read = some (some a)
    have hread : (write a).nullable? read = (read (write a)).map some := by
      cases hw : write a with
      | null => exact absurd hw (hnull a)
      | _ => rfl
    rw [hread, h]
    rfl

end Datum

open Datum

/-! ### Overrides -/

theorem Placement.read?_toDatum (blank : Datum → Bool) (p : Placement) :
    read? blank p.toDatum = some p := by
  cases p <;> rfl

namespace Override

/-- The fields of a written override, those included that are left out. -/
def parts : Override → List (String × Option Datum)
  | location d => [("description", d.map .text)]
  | item p d => [("placement", p.map Placement.toDatum), ("description", d.map .text)]
  | character l d => [("location", l.map .text), ("description", d.map .text)]
  | exit k h d => [("locked", k.map .bool), ("hidden", h.map .bool), ("description", d.map .text)]

theorem toDatum_eq (o : Override) :
    o.toDatum = .record (("kind", .text o.kind.name) :: present o.parts) := by
  cases o with
  | location d => cases d <;> rfl
  | item p d => cases p <;> cases d <;> rfl
  | character l d => cases l <;> cases d <;> rfl
  | exit k h d => cases k <;> cases h <;> cases d <;> rfl

theorem nodup_parts (o : Override) : (o.parts.map (·.1)).Nodup := by
  cases o <;> simp [parts]

theorem tagged?_toDatum (o : Override) :
    o.toDatum.tagged? "kind" = some (o.kind.name, .record (present o.parts)) := by
  rw [toDatum_eq]
  refine tagged?_record fun f hf => ?_
  have hname : f.1 ∈ o.parts.map (·.1) :=
    (firsts_present_sublist o.parts).subset (List.mem_map_of_mem hf)
  have hkind : ∀ name ∈ o.parts.map (·.1), name ≠ "kind" := by
    cases o <;> simp [parts]
  exact hkind _ hname

theorem ofDatum?_toDatum (o : Override) : ofDatum? o.toDatum = some o := by
  have htext : ∀ d : Option String, maybe text? (d.map .text) = some d :=
    maybe_map (fun _ => rfl) (fun _ h => by cases h)
  have hbool : ∀ b : Option Bool, maybe bool? (b.map .bool) = some b :=
    maybe_map (fun _ => rfl) (fun _ h => by cases h)
  have hplacement : ∀ p : Option Placement,
      maybe (Placement.read? isBlank) (p.map Placement.toDatum) = some p :=
    maybe_map (Placement.read?_toDatum isBlank) (fun p h => by cases p <;> cases h)
  have hfields := fields?_present .json .lenient o.nodup_parts
  unfold ofDatum?
  rw [tagged?_toDatum]
  cases o with
  | location d =>
    dsimp only [parts, List.map] at hfields
    simp [parts, kind, EntityKind.name, hfields, htext]
  | item p d =>
    dsimp only [parts, List.map] at hfields
    simp [parts, kind, EntityKind.name, hfields, htext, hplacement]
  | character l d =>
    dsimp only [parts, List.map] at hfields
    simp [parts, kind, EntityKind.name, hfields, htext]
  | exit k h d =>
    dsimp only [parts, List.map] at hfields
    simp [parts, kind, EntityKind.name, hfields, htext, hbool]

end Override

/-! ### States -/

theorem EntityKey.ofText?_text (k : EntityKey) :
    ofText? k.text = if k.id = "" then none else some k := by
  unfold ofText?
  split
  · rename_i hid
    rw [parse_text_of_empty hid]
    rfl
  · rename_i hid
    rw [parse_text hid]
    rfl

namespace State

/-- No override is of an entity with an empty identifier. -/
def NamesOverrides (s : State) : Prop := ∀ e ∈ s.overrides.toList, e.1.id ≠ ""

instance (s : State) : Decidable s.NamesOverrides := inferInstanceAs (Decidable (∀ e ∈ _, _))

theorem entries?_overrides (s : State) :
    (record (s.overrides.toList.map fun e => (e.1.text, e.2.toDatum))).entries? EntityKey.ofText?
      Override.ofDatum? = if s.NamesOverrides then some s.overrides.toList else none := by
  split
  · rename_i hnamed
    refine entries?_record fun e he => ⟨?_, Override.ofDatum?_toDatum e.2⟩
    rw [EntityKey.ofText?_text, if_neg (hnamed e he)]
  · rename_i hunnamed
    simp only [NamesOverrides, not_forall, not_not] at hunnamed
    obtain ⟨e, he, hid⟩ := hunnamed
    refine mapM_eq_none (List.mem_map_of_mem he) ?_
    rw [EntityKey.ofText?_text, if_pos hid]
    rfl

def parts (s : State) : List (String × Option Datum) :=
  [("turn", some (ofWord s.turn)), ("location", some (.text s.location)),
    ("inventory", some (ofTexts s.inventory)), ("flags", some (ofMap FlagValue.toDatum s.flags)),
    ("counters", some (ofMap (ofMap ofCount) s.counters)),
    ("deltas", some (.record (s.overrides.toList.map fun e => (e.1.text, e.2.toDatum)))),
    ("act", some (.text s.act)), ("reached_acts", some (ofTexts s.reachedActs)),
    ("completed_spokes", some (ofSet s.completedSpokes)),
    ("fired_beats", some (ofTexts s.firedBeats)), ("latched_beats", some (ofSet s.latchedBeats)),
    ("used_interactions", some (ofSet s.usedInteractions)),
    ("victory", some (ofOption .text s.victory))]

theorem wholeFields?_toDatum (s : State) :
    s.toDatum.wholeFields? .json .lenient fieldNames = some (s.parts.map (·.2)) := by
  have hwritten : s.toDatum = .record (present s.parts) := rfl
  have hnames : s.parts.map (·.1) = fieldNames := rfl
  have hnodup : (s.parts.map (·.1)).Nodup := by
    rw [hnames]
    decide
  rw [hwritten, ← hnames]
  exact fields?_present .json .lenient hnodup

theorem ofDatum?_of_fields {d : Datum} {s : State}
    {turn location inventory flags counters overrides act reachedActs completedSpokes firedBeats
      latchedBeats usedInteractions victory : Option Datum}
    (hd : d.wholeFields? .json .lenient fieldNames = some [turn, location, inventory, flags,
      counters, overrides, act, reachedActs, completedSpokes, firedBeats, latchedBeats,
      usedInteractions, victory])
    (hturn : need word? turn = some s.turn) (hlocation : need text? location = some s.location)
    (hinventory : need texts? inventory = some s.inventory)
    (hflags : need (map? FlagValue.ofDatum?) flags = some s.flags)
    (hcounters : need (map? (map? count?)) counters = some s.counters)
    (hact : need text? act = some s.act) (hreached : need texts? reachedActs = some s.reachedActs)
    (hspokes : need set? completedSpokes = some s.completedSpokes)
    (hbeats : need texts? firedBeats = some s.firedBeats)
    (hlatches : need set? latchedBeats = some s.latchedBeats)
    (hused : need set? usedInteractions = some s.usedInteractions)
    (hvictory : maybe text? victory = some s.victory) :
    ofDatum? d = (need (fun d => (d.entries? EntityKey.ofText? Override.ofDatum?).map .ofList)
      overrides).map fun overrides => { s with overrides } := by
  unfold ofDatum?
  rw [hd, Option.bind_eq_bind, Option.bind_some]
  dsimp only
  rw [hturn, hlocation, hinventory, hflags, hcounters, hact, hreached, hspokes, hbeats, hlatches,
    hused, hvictory]
  cases need _ overrides <;> rfl

/-- A state is read back unless an override has a key that is not. -/
theorem ofDatum?_toDatum (s : State) :
    ofDatum? s.toDatum = if s.NamesOverrides then some s else none := by
  have hflags : (ofMap FlagValue.toDatum s.flags).map? FlagValue.ofDatum? = some s.flags :=
    map?_ofMap FlagValue.ofDatum?_toDatum s.flags
  have hcounters : (ofMap (ofMap ofCount) s.counters).map? (map? count?) = some s.counters :=
    map?_ofMap (map?_ofMap count?_ofCount) s.counters
  have hvictory : maybe text? (some (ofOption .text s.victory)) = some s.victory := by
    cases s.victory <;> rfl
  have hread := ofDatum?_of_fields (wholeFields?_toDatum s)
    ((need_some _ _).trans (word?_ofWord s.turn)) rfl (texts?_ofTexts _) hflags hcounters rfl
    (texts?_ofTexts _) (set?_ofSet _) (texts?_ofTexts _) (set?_ofSet _) (set?_ofSet _) hvictory
  rw [hread, need_some, entries?_overrides]
  split
  · rw [Option.map_some, SortedMap.ofList_toList]
    rfl
  · rfl

end State

/-! ### Saves -/

namespace Json

theorem writable_ofTexts {n : Nat} (ss : List String) : Writable (n + 1) (ofTexts ss) := by
  refine .list fun d hd => ?_
  obtain ⟨s, -, rfl⟩ := List.mem_map.1 hd
  exact .text s

theorem writable_ofMap {α : Type} {n : Nat} {write : α → Datum} (h : ∀ a, Writable n (write a))
    (m : SortedMap String α) : Writable (n + 1) (ofMap write m) := by
  refine .record fun f hf => ?_
  obtain ⟨e, -, rfl⟩ := List.mem_map.1 hf
  exact h e.2

theorem writable_present {n : Nat} {fields : List (String × Option Datum)}
    (h : ∀ f ∈ fields, ∀ d ∈ f.2, Writable n d) : Writable (n + 1) (.record (present fields)) := by
  refine .record fun f hf => ?_
  obtain ⟨g, hg, hgf⟩ := List.mem_filterMap.1 hf
  obtain ⟨d, hd, rfl⟩ := Option.map_eq_some_iff.1 hgf
  exact h g hg d hd

theorem inWords_count (c : Count) : InWords c.toInt := by
  obtain ⟨hleast, hgreatest⟩ := Count.fits_toInt c
  refine ⟨hleast, ?_⟩
  have hlimit : (wordLimit : Int) = 0xffffffffffffffff := rfl
  omega

theorem writable_ofCount {n : Nat} (c : Count) : Writable n (ofCount c) := .int (inWords_count c)

theorem writable_flagValue {n : Nat} (v : FlagValue) : Writable n v.toDatum := by
  cases v with
  | bool b => exact .bool b
  | integer c => exact writable_ofCount c
  | text s => exact .text s

theorem inWords_nat {n : Nat} (h : n < UInt64.size) : InWords n := by
  refine ⟨by omega, ?_⟩
  have hlimit : wordLimit = UInt64.size - 1 := rfl
  omega

theorem writable_placement {n : Nat} (p : Placement) : Writable (n + 1) p.toDatum := by
  cases p with
  | location l => exact .record (by simpa using .text l)
  | holder c => exact .record (by simpa using .text c)
  | carried | limbo | destroyed => exact .text _

theorem writable_map {α : Type} {n : Nat} {write : α → Datum} (h : ∀ a, Writable n (write a))
    (o : Option α) : ∀ d ∈ o.map write, Writable n d := by
  intro d hd
  obtain ⟨a, -, rfl⟩ := Option.map_eq_some_iff.1 hd
  exact h a

theorem writable_override {n : Nat} (o : Override) : Writable (n + 2) o.toDatum := by
  have hwritten : o.toDatum = .record (present (("kind", some (.text o.kind.name)) :: o.parts)) :=
    o.toDatum_eq
  rw [hwritten]
  refine writable_present fun f hf => ?_
  rcases List.mem_cons.1 hf with rfl | hf
  · rintro d ⟨⟩
    exact .text _
  · have htext : ∀ o : Option String, ∀ d ∈ o.map Datum.text, Writable (n + 1) d :=
      writable_map fun s => .text s
    have hbool : ∀ o : Option Bool, ∀ d ∈ o.map Datum.bool, Writable (n + 1) d :=
      writable_map fun b => .bool b
    cases o with
    | location d =>
      obtain rfl := List.mem_singleton.1 hf
      exact htext d
    | item p d =>
      simp only [Override.parts, List.mem_cons, List.not_mem_nil, or_false] at hf
      rcases hf with rfl | rfl
      · exact writable_map writable_placement p
      · exact htext d
    | character l d =>
      simp only [Override.parts, List.mem_cons, List.not_mem_nil, or_false] at hf
      rcases hf with rfl | rfl
      · exact htext l
      · exact htext d
    | exit k h d =>
      simp only [Override.parts, List.mem_cons, List.not_mem_nil, or_false] at hf
      rcases hf with rfl | rfl | rfl
      · exact hbool k
      · exact hbool h
      · exact htext d

theorem writable_state {n : Nat} (s : State) : Writable (n + 4) s.toDatum := by
  have hwritten : s.toDatum = .record (present s.parts) := rfl
  have hset : ∀ xs : SortedSet EntityId, Writable (n + 3) (ofSet xs) :=
    fun xs => writable_ofTexts xs.toList
  have hcounters : Writable (n + 3) (ofMap (ofMap ofCount) s.counters) :=
    writable_ofMap (writable_ofMap writable_ofCount) s.counters
  have hflags : Writable (n + 3) (ofMap FlagValue.toDatum s.flags) :=
    writable_ofMap writable_flagValue s.flags
  have hoverrides :
      Writable (n + 3) (.record (s.overrides.toList.map fun e => (e.1.text, e.2.toDatum))) := by
    refine .record fun f hf => ?_
    obtain ⟨e, -, rfl⟩ := List.mem_map.1 hf
    exact writable_override e.2
  have hvictory : Writable (n + 3) (ofOption .text s.victory) := by
    cases s.victory with
    | none => exact .null
    | some v => exact .text v
  rw [hwritten]
  refine writable_present fun f hf => ?_
  simp only [State.parts, List.mem_cons, List.not_mem_nil, or_false] at hf
  rcases hf with rfl | rfl | rfl | rfl | rfl | rfl | rfl | rfl | rfl | rfl | rfl | rfl | rfl <;>
    rintro d ⟨⟩
  · exact .int (inWords_nat s.turn.toNat_lt)
  · exact .text _
  · exact writable_ofTexts _
  · exact hflags
  · exact hcounters
  · exact hoverrides
  · exact .text _
  · exact writable_ofTexts _
  · exact hset _
  · exact writable_ofTexts _
  · exact hset _
  · exact hset _
  · exact hvictory

end Json

namespace Save

def parts (s : Save) : List (String × Option Datum) :=
  [("format", some (int s.format.toNat)), ("session_id", some (.text s.sessionId.text)),
    ("catalog_version", some (.text s.catalogVersion)), ("saved_at", some (.text s.savedAt.text)),
    ("state", some s.state.toDatum)]

theorem toDatum_eq (s : Save) : s.toDatum = .record (present s.parts) := rfl

theorem writable {n : Nat} (s : Save) : Json.Writable (n + 5) s.toDatum := by
  rw [toDatum_eq]
  refine Json.writable_present fun f hf => ?_
  simp only [parts, List.mem_cons, List.not_mem_nil, or_false] at hf
  rcases hf with rfl | rfl | rfl | rfl | rfl <;> rintro d ⟨⟩
  · have hformat : s.format.toNat < UInt64.size :=
      Nat.lt_trans s.format.toNat_lt (by decide)
    exact .int (Json.inWords_nat hformat)
  · exact .text _
  · exact .text _
  · exact .text _
  · exact Json.writable_state s.state

theorem ofDatum?_of_fields {d : Datum} {s : Save}
    {format sessionId catalogVersion savedAt state : Option Datum}
    (hd : d.fields? .json .lenient
      ["format", "session_id", "catalog_version", "saved_at", "state"] =
        some [format, sessionId, catalogVersion, savedAt, state])
    (hformat : need (fun d => (d.natBelow? UInt32.size).map UInt32.ofNat) format = some s.format)
    (hid : need (fun d => d.text?.bind SessionId.parse?) sessionId = some s.sessionId)
    (hversion : need text? catalogVersion = some s.catalogVersion) :
    ofDatum? d = (need (fun d => d.text?.bind Instant.parse?) savedAt).bind fun savedAt =>
      (need State.ofDatum? state).map fun state => { s with savedAt, state } := by
  unfold ofDatum?
  rw [hd]
  simp only [Option.bind_eq_bind, Option.bind_some, hformat, hid, hversion]
  cases need _ savedAt <;> cases need State.ofDatum? state <;> rfl

/-- What is read of the text of a save is that save, with its instant as that is read back, and
nothing if an override of the state has a key that is not read. -/
theorem parse?_text_eq (s : Save) :
    parse? s.text =
      if s.state.NamesOverrides then
        (Instant.parse? s.savedAt.text).map fun savedAt => { s with savedAt }
      else none := by
  have hwritable : Json.Writable Json.depthLimit s.toDatum := writable s
  have hnodup : (s.parts.map (·.1)).Nodup := by
    have hnames : s.parts.map (·.1) =
        ["format", "session_id", "catalog_version", "saved_at", "state"] := rfl
    rw [hnames]
    decide
  have hformat : (int s.format.toNat).natBelow? UInt32.size = some s.format.toNat :=
    natBelow?_ofNat s.format.toNat_lt
  have hread : ofDatum? s.toDatum =
      (need (fun d => d.text?.bind Instant.parse?) (some (.text s.savedAt.text))).bind
        fun savedAt => (need State.ofDatum? (some s.state.toDatum)).map
          fun state => { s with savedAt, state } := by
    refine ofDatum?_of_fields (fields?_present .json .lenient hnodup) ?_ ?_ rfl
    · rw [need_some, hformat, Option.map_some, UInt32.ofNat_toNat]
    · rw [need_some, bind_text?, SessionId.parse?_text]
  unfold parse? text
  rw [Json.parse?_pretty hwritable, Option.bind_some, hread, need_some, need_some, bind_text?,
    State.ofDatum?_toDatum]
  generalize Instant.parse? s.savedAt.text = savedAt
  split <;> cases savedAt <;> rfl

theorem parse?_text {s : Save} (hat : s.savedAt.IsValid) :
    parse? s.text = if s.state.NamesOverrides then some s else none := by
  rw [parse?_text_eq, Instant.parse?_text hat, Option.map_some]

/-- A save comes back from its text as it was exactly if each of its overrides is of an entity whose
identifier is not empty and its instant comes back, as any does that a clock can show. The text then
belongs to no other save whose instant comes back. -/
theorem parse?_text_eq_some_iff (s : Save) :
    (parse? s.text = some s ↔
      (∀ e ∈ s.state.overrides.toList, e.1.id ≠ "") ∧
        Instant.parse? s.savedAt.text = some s.savedAt) ∧
    (s.savedAt.IsValid → Instant.parse? s.savedAt.text = some s.savedAt) ∧
    (parse? s.text = some s → ∀ r : Save,
      Instant.parse? r.savedAt.text = some r.savedAt → r.text = s.text → r = s) := by
  have hback : ∀ r : Save, Instant.parse? r.savedAt.text = some r.savedAt →
      parse? r.text = if r.state.NamesOverrides then some r else none := by
    intro r hat
    rw [parse?_text_eq, hat, Option.map_some]
  refine ⟨⟨fun h => ?_, fun ⟨hnamed, hat⟩ => ?_⟩, Instant.parse?_text, fun hs r hat htext => ?_⟩
  · rw [parse?_text_eq] at h
    split at h
    · rename_i hnamed
      obtain ⟨savedAt, hat, hsame⟩ := Option.map_eq_some_iff.1 h
      have hinstant : savedAt = s.savedAt := congrArg Save.savedAt hsame
      rw [hinstant] at hat
      exact ⟨hnamed, hat⟩
    · cases h
  · rw [hback s hat]
    exact if_pos hnamed
  · rw [← htext, hback r hat] at hs
    split at hs
    · exact Option.some.inj hs
    · cases hs

/-- A save with something in every field, and texts that have to be escaped. -/
def laden : Save where
  format := 7
  sessionId := .ofRandom 0x0123456789abcdef0123456789abcdef
  catalogVersion := "1.0 \"draft\""
  savedAt := ⟨⟨2024, 2, 29⟩, 23, 59, 60, 120000000⟩
  state := {
    turn := 0xffffffffffffffff
    location := "a:b"
    inventory := ["lantern", "", "lantern"]
    flags := .ofList [("dark", .bool false), ("steps", .integer Count.least),
      ("note", .text "true"), ("", .text "tab\tline\nquote\"back\\slash é")]
    counters := .ofList [("cat", .ofList [("mood", Count.greatest), ("", 0)]), ("dog", .empty)]
    overrides := .ofList [(⟨.location, "a:b"⟩, .location none),
      (⟨.item, "lantern"⟩, .item (some (.holder "cat")) (some "")),
      (⟨.item, "key"⟩, .item (some .destroyed) none),
      (⟨.character, "item:cat"⟩, .character (some "") (some "null")),
      (⟨.exit, " "⟩, .exit (some false) none none)]
    act := ""
    reachedActs := ["day", "day"]
    completedSpokes := .ofList ["west", "east"]
    firedBeats := ["dusk"]
    latchedBeats := .empty
    usedInteractions := .ofList [""]
    victory := some "" }

theorem laden_comes_back :
    (parse? laden.text = some laden ↔
      (∀ e ∈ laden.state.overrides.toList, e.1.id ≠ "") ∧
        Instant.parse? laden.savedAt.text = some laden.savedAt) ∧
    laden.savedAt.IsValid ∧ (∀ e ∈ laden.state.overrides.toList, e.1.id ≠ "") ∧
    parse? laden.text = some laden := by
  obtain ⟨hiff, hvalid, -⟩ := parse?_text_eq_some_iff laden
  have hat : laden.savedAt.IsValid :=
    ⟨by decide, by decide, by decide, by decide, by decide⟩
  have hnamed : ∀ e ∈ laden.state.overrides.toList, e.1.id ≠ "" := by decide
  exact ⟨hiff, hat, hnamed, hiff.2 ⟨hnamed, hvalid hat⟩⟩

end Save

end Storyworld
