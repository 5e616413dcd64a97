import Storyworld.Command

/-!
# The phrases of a command

What a command is about is said in phrases: runs of words of the line, joined by single spaces.
No object of a command is empty, with one exception (`Command.objects_parse`): who is talked to is
the phrase in front of `about`, even where there is none. A line is an incomplete command exactly if
the verb cannot do without an object and has none left once its particle is dropped.
-/

namespace Storyworld

open Text

namespace Text

theorem unwords_ne_empty {ws : List String} (hne : ws ≠ []) (h : ∀ w ∈ ws, w ≠ "") :
    unwords ws ≠ "" := by
  unfold unwords
  match ws with
  | [w] =>
    rw [String.intercalate_singleton]
    exact h w (.head _)
  | w :: v :: ws =>
    rw [String.intercalate_cons_cons]
    have hw := h w (.head _)
    simp [hw]

/-- The phrase is a run of the words, joined by single spaces. -/
def IsPhraseIn (ws : List String) (phrase : String) : Prop :=
  ∃ run, run ≠ [] ∧ run <:+: ws ∧ phrase = unwords run

/-- The phrase is not empty, and a run of words of the line. -/
def IsPhraseOf (line phrase : String) : Prop := phrase ≠ "" ∧ IsPhraseIn (words line) phrase

theorem IsPhraseIn.mono {ws ws' : List String} {phrase : String} (h : IsPhraseIn ws phrase)
    (hws : ws <:+: ws') : IsPhraseIn ws' phrase := by
  obtain ⟨run, hne, hrun, hphrase⟩ := h
  exact ⟨run, hne, hrun.trans hws, hphrase⟩

theorem IsPhraseIn.isPhraseOf {line phrase : String} (h : IsPhraseIn (words line) phrase) :
    IsPhraseOf line phrase := by
  refine ⟨?_, h⟩
  obtain ⟨run, hne, hrun, rfl⟩ := h
  exact unwords_ne_empty hne fun w hw => nonempty_of_mem_words (hrun.subset hw)

end Text

/-- The question that a verb asks which lacks its object. -/
def Verb.prompt? : Verb → Option Prompt
  | move => some .goWhere
  | look => none
  | take => some .takeWhat
  | drop => some .dropWhat
  | talk => some .talkToWhom
  | use => some .useWhat

namespace Command

def objects : Command → List String
  | move _ | incomplete _ | unknown _ => []
  | go target => [target]
  | look target => target.toList
  | take item | drop item => [item]
  | talk character topic => character :: topic.toList
  | use item target => item :: target.toList

/-- There are no words, or one particle. -/
def NothingBut (particles ws : List String) : Prop :=
  ws.length ≤ 1 ∧ ∀ w ∈ ws, isParticle particles w = true

/-- The object that the verb cannot do without is left out of the words after it. -/
def Lacks : Verb → List String → Prop
  | .move, rest => NothingBut ["to", "towards", "into"] rest
  | .look, _ => False
  | .take, rest => NothingBut ["up"] rest
  | .drop, rest => NothingBut ["down"] rest
  | .talk, rest => NothingBut ["to", "with"] rest
  | .use, rest => ∀ w ∈ rest.head?, isParticle ["on", "with"] w = true

def NamesNobody (rest : List String) : Prop :=
  ∃ front w topic, rest = front ++ w :: topic ∧ NothingBut ["to", "with"] front ∧
    isParticle ["about"] w = true

variable {particles ws rest : List String} {p : String}

/-! ### Particles -/

theorem skipParticle_isSuffix (particles ws : List String) : skipParticle particles ws <:+ ws := by
  cases ws with
  | nil => exact List.suffix_rfl
  | cons w ws =>
    rw [skipParticle]
    split
    · exact List.suffix_cons ..
    · exact List.suffix_rfl

theorem skipParticle_eq_nil_iff : skipParticle particles ws = [] ↔ NothingBut particles ws := by
  unfold NothingBut
  cases ws with
  | nil => simp [skipParticle]
  | cons w ws =>
    rw [skipParticle]
    split
    · rename_i hw
      constructor
      · rintro rfl
        simpa using hw
      · exact fun h => List.length_eq_zero_iff.1 (by simpa using h.1)
    · rename_i hw
      simp [hw]

theorem skipLastParticle_isPrefix (particles ws : List String) :
    skipLastParticle particles ws <+: ws := by
  unfold skipLastParticle
  split
  · split
    · exact List.dropLast_prefix _
    · exact List.prefix_rfl
  · exact List.nil_prefix

theorem skipLastParticle_eq_nil_iff :
    skipLastParticle particles ws = [] ↔ NothingBut particles ws := by
  unfold NothingBut
  rcases List.eq_nil_or_concat ws with rfl | ⟨front, w, rfl⟩
  · simp [skipLastParticle]
  · rw [List.concat_eq_append]
    unfold skipLastParticle
    rw [List.getLast?_concat]
    dsimp only
    split
    · rename_i hw
      rw [List.dropLast_concat]
      constructor
      · rintro rfl
        simpa using hw
      · exact fun h => List.length_eq_zero_iff.1 (by simpa using h.1)
    · rename_i hw
      simp [hw]

theorem phrase?_eq_none_iff : phrase? ws = none ↔ ws = [] := by
  simp [phrase?]

theorem isPhraseIn_unwords (h : ws ≠ []) : IsPhraseIn ws (unwords ws) :=
  ⟨ws, h, List.infix_rfl, rfl⟩

theorem isPhraseIn_of_phrase? (h : phrase? ws = some p) : IsPhraseIn ws p := by
  unfold phrase? at h
  split at h
  · cases h
  · rename_i hws
    exact Option.some.inj h ▸ isPhraseIn_unwords (by simpa using hws)

/-- What is in front of the first particle is a run of the words, and so is what follows it. -/
theorem splitAt_isInfix (particles ws : List String) :
    (splitAt particles ws).1 <:+: ws ∧ (splitAt particles ws).2 <:+: ws :=
  ⟨(List.takeWhile_prefix _).isInfix,
    ((List.drop_suffix 1 _).trans (List.dropWhile_suffix _)).isInfix⟩

theorem splitAt_fst_eq_nil_iff :
    (splitAt particles ws).1 = [] ↔ ∀ w ∈ ws.head?, isParticle particles w = true := by
  unfold splitAt
  cases ws with
  | nil => simp
  | cons w ws => simp [List.takeWhile_cons]

/-! ### Verbs -/

theorem ofUse_eq (rest : List String) :
    ofUse rest =
      match phrase? (splitAt ["on", "with"] rest).1 with
      | none => incomplete .useWhat
      | some item => use item (phrase? (splitAt ["on", "with"] rest).2) := rfl

theorem incomplete_ofVerb_iff {verb : Verb} {q : Prompt} :
    ofVerb verb rest = incomplete q ↔ verb.prompt? = some q ∧ Lacks verb rest := by
  cases verb with
  | move =>
    show ofMove rest = _ ↔ some _ = _ ∧ NothingBut _ rest
    rw [← skipParticle_eq_nil_iff]
    unfold ofMove
    split
    · rename_i h
      simp [h]
    · rename_i h
      rw [h]
      split <;> simp
    · rename_i h _
      simpa using fun _ => h
  | look => simp [ofVerb, ofLook, Verb.prompt?]
  | take =>
    show ofTake rest = _ ↔ some _ = _ ∧ NothingBut _ rest
    rw [← skipParticle_eq_nil_iff, ← phrase?_eq_none_iff]
    unfold ofTake
    split <;> simp_all
  | drop =>
    show ofDrop rest = _ ↔ some _ = _ ∧ NothingBut _ rest
    rw [← skipLastParticle_eq_nil_iff, ← phrase?_eq_none_iff]
    unfold ofDrop
    split <;> simp_all
  | talk =>
    show ofTalk rest = _ ↔ some _ = _ ∧ NothingBut _ rest
    rw [← skipParticle_eq_nil_iff]
    unfold ofTalk
    split
    · rename_i h
      simp [h]
    · rename_i h
      simpa using fun _ => h
  | use =>
    show ofUse rest = _ ↔ some _ = _ ∧ ∀ w ∈ rest.head?, isParticle _ w = true
    rw [← splitAt_fst_eq_nil_iff, ← phrase?_eq_none_iff]
    rw [ofUse_eq]
    split <;> simp_all

theorem not_isParticle_of_about {w : String} (h : isParticle ["about"] w = true) :
    isParticle ["to", "with"] w = false := by
  have hw : w.toList.map lowerAscii = "about".toList.map lowerAscii := by
    simpa [isParticle, eqIgnoreAsciiCase] using h
  unfold isParticle eqIgnoreAsciiCase
  rw [hw]
  decide

theorem namesNobody_iff :
    NamesNobody rest ↔ ∃ w topic, skipParticle ["to", "with"] rest = w :: topic ∧
      isParticle ["about"] w = true := by
  constructor
  · rintro ⟨front, w, topic, rfl, ⟨hlength, hfront⟩, hw⟩
    refine ⟨w, topic, ?_, hw⟩
    match front with
    | [] =>
      rw [List.nil_append, skipParticle, not_isParticle_of_about hw]
      rfl
    | [v] =>
      have hv := hfront v (.head _)
      rw [List.singleton_append, skipParticle, if_pos hv]
  · rintro ⟨w, topic, hskip, hw⟩
    cases rest with
    | nil => cases hskip
    | cons v rest =>
      rw [skipParticle] at hskip
      split at hskip
      · rename_i hv
        exact ⟨[v], w, topic, by rw [hskip]; rfl, ⟨Nat.le_refl _, by simpa using hv⟩, hw⟩
      · exact ⟨[], w, topic, hskip, ⟨Nat.zero_le _, nofun⟩, hw⟩

theorem ofTalk_of_ne_nil {ws : List String} (hws : skipParticle ["to", "with"] rest = ws)
    (hne : ws ≠ []) :
    ofTalk rest =
      talk (unwords (splitAt ["about"] ws).1) (phrase? (splitAt ["about"] ws).2) := by
  unfold ofTalk
  rw [hws]
  split
  · exact absurd rfl hne
  · rfl

theorem ofTalk_of_namesNobody (h : NamesNobody rest) :
    ∃ topic, ofTalk rest = talk "" topic ∧ ∀ p ∈ topic, IsPhraseIn rest p := by
  obtain ⟨w, topic, hskip, hw⟩ := namesNobody_iff.1 h
  have hwho : (splitAt ["about"] (w :: topic)).1 = [] :=
    splitAt_fst_eq_nil_iff.2 (by simpa using hw)
  have hrest : w :: topic <:+: rest := hskip ▸ (skipParticle_isSuffix ["to", "with"] rest).isInfix
  refine ⟨phrase? (splitAt ["about"] (w :: topic)).2, ?_, fun p hp => ?_⟩
  · rw [ofTalk_of_ne_nil hskip nofun, hwho]
    rfl
  · have hphrase := isPhraseIn_of_phrase? (Option.mem_def.1 hp)
    exact (hphrase.mono (splitAt_isInfix _ _).2).mono hrest

/-- Unless nobody is named, the objects of a verb are runs of the words after it. -/
theorem isPhraseIn_of_mem_objects {verb : Verb} (h : p ∈ (ofVerb verb rest).objects)
    (hnamed : verb = .talk → ¬NamesNobody rest) : IsPhraseIn rest p := by
  cases verb with
  | move =>
    have hskipped := (skipParticle_isSuffix ["to", "towards", "into"] rest).isInfix
    refine IsPhraseIn.mono ?_ hskipped
    change p ∈ (ofMove rest).objects at h
    unfold ofMove at h
    split at h
    · cases h
    · rename_i w hskip
      split at h
      · cases h
      · obtain rfl := List.mem_singleton.1 h
        exact ⟨[p], nofun, hskip ▸ List.infix_rfl, String.intercalate_singleton.symm⟩
    · rename_i hne _
      exact List.mem_singleton.1 h ▸ isPhraseIn_unwords hne
  | look =>
    have hskipped := (skipParticle_isSuffix ["at", "around", "in"] rest).isInfix
    exact (isPhraseIn_of_phrase? (Option.mem_toList.1 h)).mono hskipped
  | take =>
    have hskipped := (skipParticle_isSuffix ["up"] rest).isInfix
    change p ∈ (ofTake rest).objects at h
    unfold ofTake at h
    split at h
    · cases h
    · rename_i hphrase
      obtain rfl := List.mem_singleton.1 h
      exact (isPhraseIn_of_phrase? hphrase).mono hskipped
  | drop =>
    have hskipped := (skipLastParticle_isPrefix ["down"] rest).isInfix
    change p ∈ (ofDrop rest).objects at h
    unfold ofDrop at h
    split at h
    · cases h
    · rename_i hphrase
      obtain rfl := List.mem_singleton.1 h
      exact (isPhraseIn_of_phrase? hphrase).mono hskipped
  | talk =>
    have hskipped := (skipParticle_isSuffix ["to", "with"] rest).isInfix
    change p ∈ (ofTalk rest).objects at h
    cases hskip : skipParticle ["to", "with"] rest with
    | nil =>
      unfold ofTalk at h
      rw [hskip] at h
      cases h
    | cons w ws =>
      rw [hskip] at hskipped
      obtain ⟨hwho, htopic⟩ := splitAt_isInfix ["about"] (w :: ws)
      rw [ofTalk_of_ne_nil hskip nofun] at h
      refine IsPhraseIn.mono ?_ hskipped
      rcases List.mem_cons.1 h with rfl | h
      · refine (isPhraseIn_unwords fun hnil => ?_).mono hwho
        -- Words that begin with the particle name nobody.
        have habout := splitAt_fst_eq_nil_iff.1 hnil w rfl
        exact hnamed rfl (namesNobody_iff.2 ⟨w, ws, hskip, habout⟩)
      · exact (isPhraseIn_of_phrase? (Option.mem_toList.1 h)).mono htopic
  | use =>
    obtain ⟨hitem, htarget⟩ := splitAt_isInfix ["on", "with"] rest
    change p ∈ (ofUse rest).objects at h
    rw [ofUse_eq] at h
    split at h
    · cases h
    · rename_i hphrase
      rcases List.mem_cons.1 h with rfl | h
      · exact (isPhraseIn_of_phrase? hphrase).mono hitem
      · exact (isPhraseIn_of_phrase? (Option.mem_toList.1 h)).mono htarget

/-! ### Lines -/

theorem parse?_eq_none_of_ofWord? {w : String} {verb : Verb}
    (h : Verb.ofWord? (lowercase w) = some verb) : Direction.parse? w = none := by
  have hnone : ∀ verb ∈ Verb.all, ∀ word ∈ verb.synonyms,
      (Direction.all.find? fun d => d.name == word || d.shortName == word) = none := by decide
  have hverb := List.mem_of_find?_eq_some h
  have hword := List.find?_some h
  exact hnone verb hverb _ (List.contains_iff_mem.1 hword)

theorem parse_of_verb {input w : String} {verb : Verb} (hwords : words input = w :: rest)
    (hverb : Verb.ofWord? (lowercase w) = some verb) : parse input = ofVerb verb rest := by
  unfold parse
  rw [hwords]
  dsimp only
  rw [hverb, parse?_eq_none_of_ofWord? hverb, ite_self]

/-- A line is read as its verb says, or it has no object and asks for none. -/
theorem parse_cases (input : String) :
    (∃ w rest verb, words input = w :: rest ∧ Verb.ofWord? (lowercase w) = some verb ∧
      parse input = ofVerb verb rest) ∨
    (parse input).objects = [] ∧ ∀ q, parse input ≠ incomplete q := by
  cases hwords : words input with
  | nil =>
    have hparse : parse input = look none := by
      unfold parse
      rw [hwords]
    rw [hparse]
    exact .inr ⟨rfl, nofun⟩
  | cons w rest =>
    cases hverb : Verb.ofWord? (lowercase w) with
    | some verb => exact .inl ⟨w, rest, verb, rfl, hverb, parse_of_verb hwords hverb⟩
    | none =>
      unfold parse
      rw [hwords]
      dsimp only
      rw [hverb]
      split
      · exact .inr ⟨rfl, nofun⟩
      · rename_i hsome
        cases hsome
      · exact .inr ⟨rfl, nofun⟩

/-- The line asks to talk, and names nobody. -/
def AddressesNobody (line : String) : Prop :=
  ∃ w rest, words line = w :: rest ∧ Verb.ofWord? (lowercase w) = some .talk ∧ NamesNobody rest

theorem parse_of_addressesNobody {line : String} (h : AddressesNobody line) :
    ∃ topic, parse line = talk "" topic ∧ ∀ p ∈ topic, IsPhraseOf line p := by
  obtain ⟨w, rest, hwords, hverb, hnobody⟩ := h
  obtain ⟨topic, htalk, hphrases⟩ := ofTalk_of_namesNobody hnobody
  have hrest : rest <:+: words line := hwords ▸ (List.suffix_cons w rest).isInfix
  exact ⟨topic, (parse_of_verb hwords hverb).trans htalk,
    fun p hp => ((hphrases p hp).mono hrest).isPhraseOf⟩

/-- Every object of a command is a phrase of the line, exactly if the line does not address nobody;
if it does, the empty phrase is talked to. A line is an incomplete command exactly if its verb asks
for an object that the words after it lack. -/
theorem objects_parse (line : String) :
    ((∀ p ∈ (parse line).objects, IsPhraseOf line p) ↔ ¬AddressesNobody line) ∧
    (AddressesNobody line →
      ∃ topic, parse line = talk "" topic ∧ ∀ p ∈ topic, IsPhraseOf line p) ∧
    ∀ q, parse line = incomplete q ↔
      ∃ w rest verb, words line = w :: rest ∧ Verb.ofWord? (lowercase w) = some verb ∧
        verb.prompt? = some q ∧ Lacks verb rest := by
  refine ⟨⟨fun h hnobody => ?_, fun hsomebody p hp => ?_⟩, parse_of_addressesNobody,
    fun q => ⟨fun h => ?_, ?_⟩⟩
  · obtain ⟨topic, htalk, -⟩ := parse_of_addressesNobody hnobody
    rw [htalk] at h
    exact (h "" (.head _)).1 rfl
  · rcases parse_cases line with ⟨w, rest, verb, hwords, hverb, hparse⟩ | ⟨hnone, -⟩
    · rw [hparse] at hp
      have hphrase := isPhraseIn_of_mem_objects hp fun htalk hnobody =>
        hsomebody ⟨w, rest, hwords, htalk ▸ hverb, hnobody⟩
      exact (hphrase.mono (hwords ▸ (List.suffix_cons w rest).isInfix)).isPhraseOf
    · rw [hnone] at hp
      cases hp
  · rcases parse_cases line with ⟨w, rest, verb, hwords, hverb, hparse⟩ | ⟨-, hne⟩
    · exact ⟨w, rest, verb, hwords, hverb, incomplete_ofVerb_iff.1 (hparse.symm.trans h)⟩
    · exact absurd h (hne q)
  · rintro ⟨w, rest, verb, hwords, hverb, hlacks⟩
    exact (parse_of_verb hwords hverb).trans (incomplete_ofVerb_iff.2 hlacks)

/-- To ask about the storm is to talk to the empty phrase about it. -/
theorem storm_asked_of_nobody :
    parse "ask about the storm" = talk "" (some "the storm") ∧
      ¬∀ line, ∀ p ∈ (parse line).objects, IsPhraseOf line p := by
  have hparse : parse "ask about the storm" = talk "" (some "the storm") := by decide +kernel
  refine ⟨hparse, fun h => ?_⟩
  exact (h "ask about the storm" "" (hparse ▸ .head _)).1 rfl

end Command
end Storyworld
