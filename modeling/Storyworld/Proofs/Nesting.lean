import Storyworld.Codec.Condition
import Storyworld.Proofs.Written

/-!
# How deep data nest

`Datum.Nests` bounds how many containers stand in one another. A text is read with no more than 127
open at once, so what is read of it nests no deeper (`Json.parse?_nests`): every open container
leaves room for those around it (`Json.Progress.Fits`), whatever token comes next. A condition is
written no deeper than what it was read of, although it may have been read of a shorter spelling
(`Json.writable_condition`).
-/

namespace Storyworld

open Datum

namespace Datum

/-- The datum has containers inside each other at most so many levels deep. -/
inductive Nests : Nat → Datum → Prop
  | null {n : Nat} : Nests n .null
  | bool {n : Nat} (b : Bool) : Nests n (.bool b)
  | int {n : Nat} (i : Int) : Nests n (.int i)
  | real {n : Nat} (x : Numeral) : Nests n (.real x)
  | text {n : Nat} (s : String) : Nests n (.text s)
  | list {n : Nat} {items : List Datum} (h : ∀ d ∈ items, Nests n d) : Nests (n + 1) (.list items)
  | record {n : Nat} {fields : List (String × Datum)} (h : ∀ f ∈ fields, Nests n f.2) :
      Nests (n + 1) (.record fields)

end Datum

/-! ### Texts -/

namespace Json

theorem number?_nests {negative : Bool} {whole fraction : List Char} {exponent : Option Int}
    {d : Datum} (h : number? negative whole fraction exponent = some d) (n : Nat) : d.Nests n := by
  unfold number? at h
  dsimp only at h
  generalize (fraction.isEmpty && _ && _) = isInt at h
  cases isInt with
  | true =>
    cases h
    exact .int _
  | false =>
    obtain ⟨x, -, rfl⟩ := Option.map_eq_some_iff.1 h
    exact .real _

theorem readNumber_nests {cs rest : List Char} {d : Datum} (h : readNumber cs = some (d, rest))
    (n : Nat) : d.Nests n := by
  unfold readNumber at h
  dsimp only at h
  obtain ⟨_, -, h⟩ := Option.bind_eq_some_iff.1 h
  obtain ⟨_, -, h⟩ := Option.bind_eq_some_iff.1 h
  obtain ⟨_, -, h⟩ := Option.bind_eq_some_iff.1 h
  obtain ⟨d', hd, h⟩ := Option.bind_eq_some_iff.1 h
  cases h
  exact number?_nests hd n

theorem readToken_nests {cs rest : List Char} {d : Datum}
    (h : readToken cs = some (.scalar d, rest)) (n : Nat) : d.Nests n := by
  unfold readToken at h
  split at h <;> try cases h
  · obtain ⟨s, -, h⟩ := Option.map_eq_some_iff.1 h
    cases h
    exact .text _
  · exact .bool _
  · exact .bool _
  · exact .null
  · obtain ⟨⟨d', cs'⟩, hd, h⟩ := Option.map_eq_some_iff.1 h
    cases h
    exact readNumber_nests hd n

theorem tokens_nests {cs : List Char} {n : Nat} {ts : List Token} (h : tokens cs n = some ts)
    {d : Datum} (hd : .scalar d ∈ ts) (m : Nat) : d.Nests m := by
  induction n generalizing cs ts with
  | zero => cases h
  | succ n ih =>
    unfold tokens at h
    split at h
    · cases h
      cases hd
    · split at h
      · cases h
      · rename_i t cs' ht
        obtain ⟨ts', hts, rfl⟩ := Option.map_eq_some_iff.1 h
        rcases List.mem_cons.1 hd with rfl | hd
        · exact readToken_nests ht m
        · exact ih hts hd

/-- What an open container holds so far nests no deeper than the level leaves room for. -/
def Frame.Fits (level : Nat) : Frame → Prop
  | .list items => ∀ d ∈ items, d.Nests (depthLimit - level)
  | .record fields _ => ∀ f ∈ fields, f.2.Nests (depthLimit - level)

def FramesFit : List Frame → Prop
  | [] => True
  | f :: stack => f.Fits (stack.length + 1) ∧ FramesFit stack

/-- What was read of the innermost container fits at its level. -/
def Expecting.Fits (level : Nat) : Expecting → Prop
  | .value _ => True
  | .name fields _ | .colon fields _ => 0 < level ∧ ∀ f ∈ fields, f.2.Nests (depthLimit - level)
  | .more d => d.Nests (depthLimit - level)

structure Progress.Fits (p : Progress) : Prop where
  depth : p.stack.length ≤ depthLimit
  frames : FramesFit p.stack
  expecting : p.expecting.Fits p.stack.length

theorem enter_fits {stack : List Frame} {old e : Expecting} {f : Frame} {q : Progress}
    (hframes : FramesFit stack) (hf : f.Fits (stack.length + 1)) (he : e.Fits (stack.length + 1))
    (h : Progress.enter ⟨stack, old⟩ (f :: stack) e = some q) : q.Fits := by
  unfold Progress.enter at h
  split at h
  · rename_i hlt
    cases h
    exact ⟨hlt, ⟨hf, hframes⟩, he⟩
  · cases h

theorem nests_container {level : Nat} (h : level < depthLimit) :
    (∀ items, (∀ d ∈ items, Nests (depthLimit - (level + 1)) d) →
      Nests (depthLimit - level) (.list items)) ∧
    ∀ fields, (∀ f ∈ fields, Nests (depthLimit - (level + 1)) f.2) →
      Nests (depthLimit - level) (.record fields) := by
  have hroom : depthLimit - level = depthLimit - (level + 1) + 1 := by omega
  rw [hroom]
  exact ⟨fun _ => .list, fun _ => .record⟩

theorem step_fits {p q : Progress} {t : Token} (hp : p.Fits)
    (ht : ∀ d n, t = .scalar d → d.Nests n) (h : step p t = some q) : q.Fits := by
  obtain ⟨stack, e⟩ := p
  obtain ⟨hdepth, hframes, he⟩ := hp
  unfold step at h
  dsimp only at h hdepth hframes he
  -- The cases are those of the reader: what is expected, and the token that comes.
  split at h
  · cases h
    exact ⟨hdepth, hframes, ht _ _ rfl⟩
  · exact enter_fits (f := .list []) hframes (by simp [Frame.Fits]) (by exact trivial) h
  · have hexpecting : Expecting.Fits (stack.length + 1) (.name [] true) := by simp [Expecting.Fits]
    exact enter_fits (f := .record [] "") hframes (by simp [Frame.Fits]) hexpecting h
  · split at h
    · cases h
      exact ⟨Nat.le_of_succ_le hdepth, hframes.2, (nests_container hdepth).1 [] (by simp)⟩
    · cases h
  · cases h
    exact ⟨hdepth, hframes, he⟩
  · cases h
    cases stack with
    | nil => exact absurd he.1 (Nat.lt_irrefl 0)
    | cons f stack =>
      exact ⟨Nat.le_of_succ_le hdepth, hframes.2, (nests_container hdepth).2 [] (by simp)⟩
  · cases h
    cases stack with
    | nil => exact absurd he.1 (Nat.lt_irrefl 0)
    | cons f stack => exact ⟨hdepth, ⟨he.2, hframes.2⟩, trivial⟩
  · rename_i d
    split at h
    · cases h
      rename_i items stack
      exact ⟨hdepth, ⟨List.forall_mem_cons.2 ⟨he, hframes.1⟩, hframes.2⟩, trivial⟩
    · cases h
      rename_i fields s stack
      refine ⟨hdepth, ⟨by simp [Frame.Fits], hframes.2⟩, Nat.succ_pos _, ?_⟩
      exact List.forall_mem_cons.2 ⟨he, hframes.1⟩
    · cases h
  · rename_i d
    obtain ⟨⟨l, rest⟩, hclose, h⟩ := Option.map_eq_some_iff.1 h
    cases h
    cases stack with
    | nil => cases hclose
    | cons f stack =>
      cases f with
      | record => cases hclose
      | list items =>
        cases hclose
        have hitems : ∀ x ∈ d :: items, x.Nests (depthLimit - (rest.length + 1)) :=
          List.forall_mem_cons.2 ⟨he, hframes.1⟩
        exact ⟨Nat.le_of_succ_le hdepth, hframes.2,
          (nests_container hdepth).1 _ fun x hx => hitems x (List.mem_reverse.1 hx)⟩
  · rename_i d
    split at h
    · rename_i fields s stack
      cases h
      have hfields : ∀ f ∈ (s, d) :: fields, f.2.Nests (depthLimit - (stack.length + 1)) :=
        List.forall_mem_cons.2 ⟨he, hframes.1⟩
      exact ⟨Nat.le_of_succ_le hdepth, hframes.2,
        (nests_container hdepth).2 _ fun f hf => hfields f (List.mem_reverse.1 hf)⟩
    · cases h
  · cases h

theorem steps_fits {p q : Progress} {ts : List Token} (hp : p.Fits)
    (hts : ∀ d n, .scalar d ∈ ts → d.Nests n) (h : steps p ts = some q) : q.Fits := by
  induction ts generalizing p with
  | nil =>
    cases h
    exact hp
  | cons t ts ih =>
    obtain ⟨r, hr, h⟩ := Option.bind_eq_some_iff.1 h
    have hfits := step_fits hp (fun d n ht => hts d n (ht ▸ .head _)) hr
    exact ih hfits (fun d n hd => hts d n (.tail _ hd)) h

/-- What is read of a text nests as deep as may be open at once. -/
theorem parse?_nests {s : String} {d : Datum} (h : parse? s = some d) : d.Nests depthLimit := by
  unfold parse? at h
  split at h
  · rename_i d' hsteps
    cases h
    obtain ⟨ts, hts, hsteps⟩ := Option.bind_eq_some_iff.1 hsteps
    have hstart : Progress.Fits {} := ⟨Nat.zero_le _, trivial, trivial⟩
    exact (steps_fits hstart (fun d n hd => tokens_nests hts hd n) hsteps).expecting
  · cases h

end Json

/-! ### Conditions -/

variable {fmt : Format}

namespace Datum

theorem fields?_nests {st : Strictness} {names : List String} {x : Datum} {n : Nat}
    {vs : List (Option Datum)} (h : x.fields? fmt st names = some vs) (hx : x.Nests n) :
    ∃ m, n = m + 1 ∧ ∀ v ∈ vs, ∀ y ∈ v, y.Nests m := by
  cases x with
  | list items =>
    cases hx with
    | @list m _ hitems =>
      unfold fields? at h
      dsimp only at h
      split at h
      · cases h
        refine ⟨m, rfl, fun v hv y hy => ?_⟩
        obtain ⟨i, hi, rfl⟩ := List.mem_mapIdx.1 hv
        exact hitems y (List.mem_of_getElem? hy)
      · cases h
  | record fields =>
    cases hx with
    | @record m _ hfields =>
      unfold fields? at h
      dsimp only at h
      split at h
      · cases h
        refine ⟨m, rfl, fun v hv y hy => ?_⟩
        obtain ⟨name, -, rfl⟩ := List.mem_map.1 hv
        obtain ⟨f, hf, rfl⟩ := Option.map_eq_some_iff.1 hy
        exact hfields f (List.mem_of_find?_eq_some hf)
      · cases h
  | _ => cases h

end Datum

namespace Json

theorem writable_choice {n : Nat} {name : String} {d : Datum} (h : Writable n d) :
    Writable (n + 1) (choice name d) :=
  .record (List.forall_mem_singleton.2 h)

theorem writable_atom {n : Nat} (a : Atom) : Writable (n + 2) a.toDatum := by
  cases a with
  | flagEquals | itemAt | counter =>
    exact writable_choice (.record (by simp [Writable.text, writable_flagValue, writable_ofCount]))
  | _ => exact writable_choice (.text _)

/-- What is read of a field that nests nothing is written so too. -/
theorem writable_atom_of_flat {name : String} {x : Datum} {a : Atom}
    (h : Atom.ofField? fmt name x = some a) (hx : x.Nests 0) : Writable 1 a.toDatum := by
  have hnone : ∀ st names, x.fields? fmt st names = none := by
    intro st names
    cases hx <;> rfl
  cases a with
  | flagEquals | itemAt | counter =>
    -- These are read of the fields of a record.
    unfold Atom.ofField? at h
    split at h <;> simp [hnone] at h
  | _ => exact writable_choice (.text _)

mutual
/-- A condition is written no deeper than what it was read of. -/
theorem writable_condition {n : Nat} : (x : Datum) → {c : Condition} →
    Condition.ofDatum? fmt x = some c → x.Nests n → Writable n c.toDatum
  | .text s, c, h, _ => by
    unfold Condition.ofDatum? at h
    split at h
    · cases h
      exact .text _
    · cases h
  | .record [(name, y)], c, h, .record (n := m) hy => by
    have hy : y.Nests m := hy (name, y) (.head _)
    unfold Condition.ofDatum? at h
    split at h
    · obtain ⟨c', hc, rfl⟩ := Option.map_eq_some_iff.1 h
      exact writable_choice (writable_condition y hc hy)
    split at h
    · obtain ⟨cs, hcs, rfl⟩ := Option.map_eq_some_iff.1 h
      exact writable_choice (writable_items y hcs hy)
    split at h
    · obtain ⟨cs, hcs, rfl⟩ := Option.map_eq_some_iff.1 h
      exact writable_choice (writable_items y hcs hy)
    split at h
    · split at h
      · cases h
        exact .text _
      · cases h
    · obtain ⟨a, ha, rfl⟩ := Option.map_eq_some_iff.1 h
      cases m with
      | zero => exact writable_atom_of_flat ha hy
      | succ m => exact writable_atom a
  | .record [], c, h, _ | .record (_ :: _ :: _), c, h, _ | .null, c, h, _ | .bool b, c, h, _
  | .int i, c, h, _ | .real r, c, h, _ | .list items, c, h, _ => by cases h
theorem writable_items {n : Nat} : (x : Datum) → {cs : List Condition} →
    Condition.ofList? fmt x = some cs → x.Nests n → Writable n (.list (Condition.toItems cs))
  | .list items, cs, h, .list hitems => .list (writable_conditions items h hitems)
  | .null, cs, h, _ | .bool _, cs, h, _ | .int _, cs, h, _ | .real _, cs, h, _ | .text _, cs, h, _
  | .record _, cs, h, _ => by cases h
theorem writable_conditions {n : Nat} : (xs : List Datum) → {cs : List Condition} →
    Condition.ofItems? fmt xs = some cs → (∀ x ∈ xs, x.Nests n) →
      ∀ y ∈ Condition.toItems cs, Writable n y
  | [], cs, h, _ => by
    cases h
    nofun
  | x :: xs, cs, h, hxs => by
    obtain ⟨hx, hxs⟩ := List.forall_mem_cons.1 hxs
    unfold Condition.ofItems? at h
    split at h
    · rename_i c cs' hc hcs
      cases h
      exact List.forall_mem_cons.2 ⟨writable_condition x hc hx, writable_conditions xs hcs hxs⟩
    · cases h
end

end Json

end Storyworld
