import Mathlib.Data.List.Forall2
import Storyworld.Command

/-!
# Spelling

Lines of the same words up to the case of ASCII letters are the same command, whatever is between
the words (`Command.parse_respelled`). Two notions of case meet here: verbs and directions are
looked up in lowercase, which is that of all scripts, and particles up to the case of ASCII letters.
To lower the ASCII letters of a text first (`Text.lowered`) changes nothing for either, since they
have case whatever their case is (`Text.lowercase_lowered`), and commutes with all that is done to
the words.
-/

namespace Storyworld

namespace Text

/-! ### Letters -/

/-- What does not tell the capitals of ASCII from their lowercase tells no character from its
lowercase. -/
theorem lowerAscii_congr {α : Type} {f : Char → α}
    (h : ∀ n < 26, f (lowerAscii (Char.ofNat (65 + n))) = f (Char.ofNat (65 + n))) (c : Char) :
    f (lowerAscii c) = f c := by
  by_cases hc : 65 ≤ c.toNat ∧ c.toNat ≤ 90
  · have hcapital := h (c.toNat - 65) (by omega)
    rwa [show 65 + (c.toNat - 65) = c.toNat by omega, Char.ofNat_toNat] at hcapital
  · have hself : lowerAscii c = c := by
      unfold lowerAscii Char.toLower
      refine dif_neg fun hcapital => hc ?_
      have hfirst := UInt32.le_iff_toNat_le.1 hcapital.1
      have hlast := UInt32.le_iff_toNat_le.1 hcapital.2
      exact ⟨hfirst, hlast⟩
    rw [hself]

theorem isCased_lowerAscii (c : Char) : isCased (lowerAscii c) = isCased c :=
  lowerAscii_congr (by decide +kernel) c

theorem isCaseIgnorable_lowerAscii (c : Char) :
    isCaseIgnorable (lowerAscii c) = isCaseIgnorable c :=
  lowerAscii_congr (by decide +kernel) c

theorem lowerChar_lowerAscii (c : Char) : lowerChar (lowerAscii c) = lowerChar c :=
  lowerAscii_congr (by decide +kernel) c

theorem eq_sigma_lowerAscii (c : Char) : lowerAscii c = '\u03a3' ↔ c = '\u03a3' := by
  have hsame := lowerAscii_congr (f := (· == '\u03a3')) (by decide +kernel) c
  rw [← beq_iff_eq, hsame, beq_iff_eq]

theorem lowerAscii_lowerAscii (c : Char) : lowerAscii (lowerAscii c) = lowerAscii c :=
  lowerAscii_congr (by decide +kernel) c

theorem startsCased_map (cs : List Char) : startsCased (cs.map lowerAscii) = startsCased cs := by
  unfold startsCased
  rw [List.dropWhile_map, List.head?_map, Option.any_map]
  simp only [Function.comp_def, isCased_lowerAscii, isCaseIgnorable_lowerAscii]

theorem lowerFrom_map (before cs : List Char) :
    lowerFrom (before.map lowerAscii) (cs.map lowerAscii) = lowerFrom before cs := by
  induction cs generalizing before with
  | nil => rfl
  | cons c cs ih =>
    have hrest := ih (c :: before)
    rw [List.map_cons] at hrest
    rw [List.map_cons, lowerFrom, lowerFrom, hrest, startsCased_map, startsCased_map,
      lowerChar_lowerAscii]
    simp only [eq_sigma_lowerAscii]

/-! ### Texts -/

/-- The text with its ASCII letters in lowercase. -/
def lowered (s : String) : String := String.ofList (s.toList.map lowerAscii)

theorem toList_lowered (s : String) : (lowered s).toList = s.toList.map lowerAscii :=
  String.toList_ofList

theorem eqIgnoreAsciiCase_iff {s t : String} :
    eqIgnoreAsciiCase s t = true ↔ lowered s = lowered t := by
  unfold eqIgnoreAsciiCase
  rw [beq_iff_eq, ← toList_lowered, ← toList_lowered, String.toList_inj]

theorem lowered_lowered (s : String) : lowered (lowered s) = lowered s := by
  unfold lowered
  rw [String.toList_ofList, List.map_map]
  simp only [Function.comp_def, lowerAscii_lowerAscii]

/-- The lowercase of a text does not depend on the case of its ASCII letters. -/
theorem lowercase_lowered (s : String) : lowercase (lowered s) = lowercase s := by
  unfold lowercase
  rw [toList_lowered]
  exact congrArg String.ofList (lowerFrom_map [] s.toList)

theorem lowered_append (s t : String) : lowered (s ++ t) = lowered s ++ lowered t := by
  simp [lowered]

theorem unwords_map_lowered (ws : List String) : unwords (ws.map lowered) = lowered (unwords ws) := by
  unfold unwords
  induction ws with
  | nil => rfl
  | cons w ws ih =>
    cases ws with
    | nil => simp
    | cons v ws =>
      rw [List.map_cons] at ih
      rw [List.map_cons, List.map_cons, String.intercalate_cons_cons, ih,
        String.intercalate_cons_cons, lowered_append, lowered_append]
      rfl

/-! ### Words -/

theorem wordsFrom_blanks {word bs : List Char} (h : ∀ c ∈ bs, isBlank c = true) :
    wordsFrom word bs = wordsFrom word [] := by
  induction bs generalizing word with
  | nil => rfl
  | cons b bs ih =>
    obtain ⟨hb, hbs⟩ := List.forall_mem_cons.1 h
    simp only [wordsFrom, if_pos hb, ih hbs]
    cases word <;> rfl

theorem wordsFrom_append {word cs bs : List Char} (h : ∀ c ∈ bs, isBlank c = true) :
    wordsFrom word (cs ++ bs) = wordsFrom word cs := by
  induction cs generalizing word with
  | nil => exact wordsFrom_blanks h
  | cons c cs ih => simp only [List.cons_append, wordsFrom, ih]

theorem wordsFrom_dropWhile (cs : List Char) :
    wordsFrom [] (cs.dropWhile isBlank) = wordsFrom [] cs := by
  induction cs with
  | nil => rfl
  | cons c cs ih =>
    rw [List.dropWhile_cons]
    split
    · rename_i hc
      rw [ih, wordsFrom, if_pos hc]
      rfl
    · rfl

theorem words_trim (s : String) : words (trim s) = words s := by
  unfold words trim
  rw [String.toList_ofList]
  refine congrArg _ ?_
  generalize hcs : s.toList.dropWhile isBlank = cs
  have hsplit : cs = (cs.reverse.dropWhile isBlank).reverse ++
      (cs.reverse.takeWhile isBlank).reverse := by
    rw [← List.reverse_append, List.takeWhile_append_dropWhile, List.reverse_reverse]
  have hblank : ∀ c ∈ (cs.reverse.takeWhile isBlank).reverse, isBlank c = true :=
    fun c hc => List.all_eq_true.1 List.all_takeWhile c (List.mem_reverse.1 hc)
  rw [← wordsFrom_append hblank, ← hsplit, ← hcs, wordsFrom_dropWhile]

end Text

open Text

theorem Direction.parse?_lowered (w : String) : parse? (lowered w) = parse? w := by
  unfold parse?
  rw [lowercase_lowered]

namespace Command

variable (particles ws rest : List String)

/-! ### Commands -/

/-- The command with the ASCII letters of its phrases in lowercase; of a line without a known verb
only the words count. -/
def lowered : Command → Command
  | move d => move d
  | go target => go (Text.lowered target)
  | look target => look (target.map Text.lowered)
  | take item => take (Text.lowered item)
  | drop item => drop (Text.lowered item)
  | talk character topic => talk (Text.lowered character) (topic.map Text.lowered)
  | use item target => use (Text.lowered item) (target.map Text.lowered)
  | incomplete q => incomplete q
  | unknown input => unknown (Text.lowered (unwords (words input)))

theorem isParticle_lowered (w : String) :
    isParticle particles (Text.lowered w) = isParticle particles w := by
  unfold isParticle
  refine congrArg _ (funext fun particle => Bool.eq_iff_iff.2 ?_)
  rw [eqIgnoreAsciiCase_iff, eqIgnoreAsciiCase_iff, lowered_lowered]

theorem skipParticle_map :
    skipParticle particles (ws.map Text.lowered) =
      (skipParticle particles ws).map Text.lowered := by
  cases ws with
  | nil => rfl
  | cons w ws =>
    rw [List.map_cons, skipParticle, skipParticle, isParticle_lowered]
    split <;> rfl

theorem skipLastParticle_map :
    skipLastParticle particles (ws.map Text.lowered) =
      (skipLastParticle particles ws).map Text.lowered := by
  unfold skipLastParticle
  rw [List.getLast?_map]
  cases ws.getLast? with
  | none => rfl
  | some w =>
    dsimp only [Option.map_some]
    rw [isParticle_lowered, ← List.map_dropLast]
    split <;> rfl

theorem phrase?_map : phrase? (ws.map Text.lowered) = (phrase? ws).map Text.lowered := by
  unfold phrase?
  rw [List.isEmpty_map, unwords_map_lowered]
  split <;> rfl

theorem splitAt_map :
    splitAt particles (ws.map Text.lowered) =
      ((splitAt particles ws).1.map Text.lowered, (splitAt particles ws).2.map Text.lowered) := by
  have hparticle : (fun w => !isParticle particles w) ∘ Text.lowered =
      fun w => !isParticle particles w := funext fun w => by
    simp only [Function.comp_apply, isParticle_lowered]
  unfold splitAt
  rw [List.takeWhile_map, List.dropWhile_map, hparticle, List.map_drop]

theorem ofVerb_map (verb : Verb) :
    ofVerb verb (rest.map Text.lowered) = (ofVerb verb rest).lowered := by
  cases verb with
  | move =>
    show ofMove (rest.map Text.lowered) = (ofMove rest).lowered
    unfold ofMove
    rw [skipParticle_map]
    match skipParticle ["to", "towards", "into"] rest with
    | [] => rfl
    | [w] =>
      simp only [List.map_cons, List.map_nil, Direction.parse?_lowered]
      cases Direction.parse? w <;> rfl
    | w :: v :: ws =>
      exact congrArg go (unwords_map_lowered (w :: v :: ws))
  | look =>
    show ofLook (rest.map Text.lowered) = (ofLook rest).lowered
    unfold ofLook
    rw [skipParticle_map, phrase?_map]
    rfl
  | take =>
    show ofTake (rest.map Text.lowered) = (ofTake rest).lowered
    unfold ofTake
    rw [skipParticle_map, phrase?_map]
    cases phrase? (skipParticle ["up"] rest) <;> rfl
  | drop =>
    show ofDrop (rest.map Text.lowered) = (ofDrop rest).lowered
    unfold ofDrop
    rw [skipLastParticle_map, phrase?_map]
    cases phrase? (skipLastParticle ["down"] rest) <;> rfl
  | talk =>
    show ofTalk (rest.map Text.lowered) = (ofTalk rest).lowered
    unfold ofTalk
    rw [skipParticle_map]
    match skipParticle ["to", "with"] rest with
    | [] => rfl
    | w :: ws =>
      have hsplit := splitAt_map ["about"] (w :: ws)
      rw [List.map_cons] at hsplit ⊢
      dsimp only
      rw [hsplit]
      dsimp only
      rw [phrase?_map, unwords_map_lowered]
      rfl
  | use =>
    show ofUse (rest.map Text.lowered) = (ofUse rest).lowered
    unfold ofUse
    rw [splitAt_map]
    dsimp only
    rw [phrase?_map, phrase?_map]
    cases phrase? (splitAt ["on", "with"] rest).1 <;> rfl

/-- What a line of these words is read as; an unknown command is the words with single spaces. -/
def ofWords : List String → Command
  | [] => look none
  | w :: rest =>
    match (if rest.isEmpty then Direction.parse? w else none), Verb.ofWord? (lowercase w) with
    | some d, _ => move d
    | none, some verb => ofVerb verb rest
    | none, none => unknown (unwords (w :: rest))

/-- But for the case of ASCII letters, what a line is read as depends on its words alone. -/
theorem lowered_parse (line : String) :
    (parse line).lowered = ofWords ((words line).map Text.lowered) := by
  unfold parse
  cases hwords : words line with
  | nil => rfl
  | cons w rest =>
    rw [List.map_cons, ofWords, List.isEmpty_map, Direction.parse?_lowered, lowercase_lowered]
    dsimp only
    cases (if rest.isEmpty = true then Direction.parse? w else none) with
    | some d => rfl
    | none =>
      cases Verb.ofWord? (lowercase w) with
      | some verb => exact (ofVerb_map rest verb).symm
      | none =>
        show unknown (Text.lowered (unwords (words (trim line)))) = _
        rw [words_trim, hwords, ← List.map_cons, unwords_map_lowered]

/-- Lines whose words are equal up to the case of ASCII letters are read as commands of one form,
with the same direction or question, and with phrases that are equal up to the case of ASCII
letters. -/
theorem parse_respelled {line line' : String}
    (h : List.Forall₂ (fun w w' => eqIgnoreAsciiCase w w' = true) (words line) (words line')) :
    (parse line).lowered = (parse line').lowered := by
  have hwords : (words line).map Text.lowered = (words line').map Text.lowered := by
    rw [← List.forall₂_eq_eq_eq, List.forall₂_map_left_iff, List.forall₂_map_right_iff]
    exact h.imp fun _ _ => eqIgnoreAsciiCase_iff.1
  rw [lowered_parse, lowered_parse, hwords]

/-- The Kelvin sign, whose lowercase is a letter of ASCII, stands in a verb as it stands in a phrase,
and blanks of any kind divide the words. -/
theorem kelvin_talked_to :
    let line := "  tal\u212a TO Old \t \u212a about IT"
    let line' := "TAL\u212a\u00a0to old \u212a ABOUT it\n"
    List.Forall₂ (fun w w' => eqIgnoreAsciiCase w w' = true) (words line) (words line') ∧
      parse line = talk "Old \u212a" (some "IT") ∧ parse line' = talk "old \u212a" (some "it") ∧
      (parse line).lowered = (parse line').lowered := by
  intro line line'
  have hwords : words line = ["tal\u212a", "TO", "Old", "\u212a", "about", "IT"] := by
    decide +kernel
  have hwords' : words line' = ["TAL\u212a", "to", "old", "\u212a", "ABOUT", "it"] := by
    decide +kernel
  have hsame : List.Forall₂ (fun w w' => eqIgnoreAsciiCase w w' = true) (words line)
      (words line') := by
    rw [hwords, hwords']
    exact .cons rfl (.cons rfl (.cons rfl (.cons rfl (.cons rfl (.cons rfl .nil)))))
  exact ⟨hsame, by decide +kernel, by decide +kernel, parse_respelled hsame⟩

end Command
end Storyworld
