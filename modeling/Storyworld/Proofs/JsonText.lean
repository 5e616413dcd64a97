import Storyworld.Json.Reader
import Storyworld.Json.Writer

/-!
# Written data

What is written as JSON is read back: `parse?_pretty`. The numbers of the datum have to be integers
that 64 bits hold, and no more than 127 containers may stand in one another (`Writable`). `Takes`
follows the reader over a text, token by token; in front of a token, blanks do not matter.
-/

namespace Storyworld.Json

/-! ### Numbers -/

/-- A text that cannot go on with a number: it is empty, or begins with a comma or a new line. -/
def Ends (rest : List Char) : Prop := ∀ c ∈ rest.head?, c = ',' ∨ c = '\n'

theorem ends_nil : Ends [] := by
  rintro c ⟨⟩

theorem ends_comma (cs : List Char) : Ends (',' :: cs) := by
  rintro c ⟨⟩
  exact .inl rfl

theorem ends_newline (cs : List Char) : Ends ('\n' :: cs) := by
  rintro c ⟨⟩
  exact .inr rfl

theorem takeWhile_dropWhile_append {p : Char → Bool} {ds rest : List Char}
    (hds : ∀ c ∈ ds, p c = true) (hrest : ∀ c ∈ rest.head?, p c = false) :
    (ds ++ rest).takeWhile p = ds ∧ (ds ++ rest).dropWhile p = rest := by
  rw [List.takeWhile_append_of_pos hds, List.dropWhile_append_of_pos hds]
  cases rest with
  | nil => simp
  | cons c cs =>
    have hc : p c = false := hrest c rfl
    simp [hc]

/-- Only the number zero is written with a zero in front. -/
theorem head_toDigits {n : Nat} (h : 0 < n) : (Nat.toDigits 10 n).head? ≠ some '0' := by
  induction n using Nat.strongRecOn with
  | ind n ih =>
    rw [Nat.toDigits_eq_if (by decide)]
    split
    · rename_i hlt
      have hdigit : ∀ m < 10, 0 < m → [Nat.digitChar m].head? ≠ some '0' := by decide
      exact hdigit n hlt h
    · have hhead := ih (n / 10) (by omega) (by omega)
      rw [List.head?_append]
      cases hd : (Nat.toDigits 10 (n / 10)).head? with
      | none => exact absurd (List.head?_eq_none_iff.1 hd) Nat.toDigits_ne_nil
      | some c =>
        rw [hd] at hhead
        simpa using hhead

theorem digits_toDigits {n : Nat} {rest : List Char} (hrest : Ends rest) :
    digits (Nat.toDigits 10 n ++ rest) = (Nat.toDigits 10 n, rest) := by
  have hdigit : ∀ c ∈ Nat.toDigits 10 n, c.isDigit = true :=
    fun c hc => Nat.isDigit_of_mem_toDigits (by decide) (by decide) hc
  have hstop : ∀ c ∈ rest.head?, c.isDigit = false := by
    intro c hc
    rcases hrest c hc with rfl | rfl <;> rfl
  obtain ⟨htake, hdrop⟩ := takeWhile_dropWhile_append hdigit hstop
  rw [digits, htake, hdrop]

theorem digitsValue_toDigits (n : Nat) : digitsValue (Nat.toDigits 10 n) = n :=
  Nat.ofDigitChars_toDigits (by decide) (by decide)

theorem readFraction_of_ends {rest : List Char} (h : Ends rest) :
    readFraction rest = some ([], rest) := by
  cases rest with
  | nil => rfl
  | cons c cs =>
    rcases h c rfl with rfl | rfl <;> rfl

theorem readExponent_of_ends {rest : List Char} (h : Ends rest) :
    readExponent rest = some (none, rest) := by
  cases rest with
  | nil => rfl
  | cons c cs =>
    rcases h c rfl with rfl | rfl <;> rfl

theorem head_toDigits_append (n : Nat) (rest : List Char) :
    (Nat.toDigits 10 n ++ rest).head? = (Nat.toDigits 10 n).head? := by
  rw [List.head?_append]
  cases hd : (Nat.toDigits 10 n).head? with
  | none => exact absurd (List.head?_eq_none_iff.1 hd) Nat.toDigits_ne_nil
  | some c => rfl

theorem readSign_toDigits (n : Nat) (rest : List Char) :
    readSign (Nat.toDigits 10 n ++ rest) = (false, Nat.toDigits 10 n ++ rest) := by
  unfold readSign
  split
  · rename_i cs hcs
    have hhead : (Nat.toDigits 10 n ++ rest).head? = some '-' := by rw [hcs]; rfl
    rw [head_toDigits_append] at hhead
    have hdigit := Nat.isDigit_of_mem_toDigits (by decide) (by decide) (List.mem_of_head? hhead)
    exact absurd hdigit (by decide)
  · rfl

theorem readWhole_toDigits {n : Nat} {rest : List Char} (hrest : Ends rest) :
    readWhole (Nat.toDigits 10 n ++ rest) = (Nat.toDigits 10 n, rest) := by
  unfold readWhole
  split
  · rename_i cs hcs
    cases n with
    | zero =>
      rw [Nat.toDigits_zero] at hcs ⊢
      cases hcs
      rfl
    | succ n =>
      have hhead : (Nat.toDigits 10 (n + 1) ++ rest).head? = some '0' := by rw [hcs]; rfl
      rw [head_toDigits_append] at hhead
      exact absurd hhead (head_toDigits n.succ_pos)
  · exact digits_toDigits hrest

theorem readNumber_of_sign {n : Nat} {rest cs : List Char} {negative : Bool} {d : Datum}
    (hrest : Ends rest) (hsign : readSign cs = (negative, Nat.toDigits 10 n ++ rest))
    (hd : number? negative (Nat.toDigits 10 n) [] none = some d) :
    readNumber cs = some (d, rest) := by
  have hwhole : (Nat.toDigits 10 n).isEmpty = false :=
    List.isEmpty_eq_false_iff.2 Nat.toDigits_ne_nil
  unfold readNumber
  rw [hsign]
  dsimp only
  rw [readWhole_toDigits hrest]
  dsimp only
  rw [hwhole, readFraction_of_ends hrest]
  show (readExponent rest >>= fun e => number? negative (Nat.toDigits 10 n) [] e.1 >>= fun d =>
    some (d, e.2)) = some (d, rest)
  rw [readExponent_of_ends hrest, Option.bind_eq_bind, Option.bind_some, hd]
  rfl

def InWords (n : Int) : Prop := -0x8000000000000000 ≤ n ∧ n ≤ wordLimit

theorem toList_ofNat (m : Nat) : (toString (Int.ofNat m)).toList = Nat.toDigits 10 m :=
  Nat.toList_repr

theorem toList_negSucc (m : Nat) :
    (toString (Int.negSucc m)).toList = '-' :: Nat.toDigits 10 (m + 1) := by
  show ("-" ++ (m + 1).repr).toList = _
  rw [String.toList_append, Nat.toList_repr]
  rfl

theorem readNumber_toString {n : Int} {rest : List Char} (hrest : Ends rest) (hn : InWords n) :
    readNumber ((toString n).toList ++ rest) = some (.int n, rest) := by
  obtain ⟨hleast, hgreatest⟩ := hn
  cases n with
  | ofNat m =>
    have hm : m ≤ wordLimit := Int.ofNat_le.1 hgreatest
    rw [toList_ofNat]
    exact readNumber_of_sign hrest (readSign_toDigits m rest)
      (by simp [number?, digitsValue_toDigits, hm])
  | negSucc m =>
    have hm : m + 1 ≤ 0x8000000000000000 := by omega
    rw [toList_negSucc, List.cons_append]
    exact readNumber_of_sign hrest rfl
      (by simp [number?, digitsValue_toDigits, hm, Int.negSucc_eq])

/-! ### Texts -/

theorem hexValue?_control {n : Nat} (h : n < 0x20) :
    hexValue? ['0', '0', hexChar (n / 16), hexChar (n % 16)] = some n := by
  have hall : ∀ n < 0x20, hexValue? ['0', '0', hexChar (n / 16), hexChar (n % 16)] = some n := by
    decide
  exact hall n h

theorem readText_escape {c e : Char} (h : escape? c = some e) (hu : c ≠ 'u') (done cs : List Char) :
    readText done ('\\' :: c :: cs) = readText (e :: done) cs := by
  rw [readText, h]
  rintro a b c d cs rfl
  exact fun _ => hu rfl

theorem readText_control {c : Char} (h : c.toNat < 0x20) (done cs : List Char) :
    readText done ('\\' :: 'u' :: '0' :: '0' :: hexChar (c.toNat / 16) :: hexChar (c.toNat % 16) ::
      cs) = readText (c :: done) cs := by
  have hlow : c.toNat < 0xD800 := by omega
  rw [readText, hexValue?_control h]
  simp [hlow]

theorem readText_plain {c : Char} (hquote : c ≠ '"') (hslash : c ≠ '\\') (h : ¬c.toNat < 0x20)
    (done cs : List Char) : readText done (c :: cs) = readText (c :: done) cs := by
  rw [readText, if_neg h]
  · exact hquote
  · exact fun a b c d cs hc _ => hslash hc
  · exact fun c cs hc _ => hslash hc

/-- Inside quotes, a character stands for itself, behind a backslash, or by its value. -/
theorem escapeChar_cases (c : Char) :
    (∃ e, escapeChar c = ['\\', e] ∧ escape? e = some c ∧ e ≠ 'u') ∨
      (c.toNat < 0x20 ∧
        escapeChar c = ['\\', 'u', '0', '0', hexChar (c.toNat / 16), hexChar (c.toNat % 16)]) ∨
      (c ≠ '"' ∧ c ≠ '\\' ∧ ¬c.toNat < 0x20 ∧ escapeChar c = [c]) := by
  by_cases hnamed : c ∈ ['"', '\\', '\n', '\r', '\t', '\x08', '\x0c']
  · left
    simp only [List.mem_cons, List.not_mem_nil, or_false] at hnamed
    rcases hnamed with rfl | rfl | rfl | rfl | rfl | rfl | rfl <;>
      exact ⟨_, rfl, rfl, by decide⟩
  · right
    simp only [List.mem_cons, List.not_mem_nil, or_false, not_or] at hnamed
    by_cases hcontrol : c.toNat < 0x20
    · left
      refine ⟨hcontrol, ?_⟩
      simp [escapeChar, hnamed, hcontrol]
    · right
      refine ⟨hnamed.1, hnamed.2.1, hcontrol, ?_⟩
      simp [escapeChar, hnamed, hcontrol]

theorem readText_escapeChar (c : Char) (done cs : List Char) :
    readText done (escapeChar c ++ cs) = readText (c :: done) cs := by
  obtain ⟨e, hc, he, hu⟩ | ⟨hlow, hc⟩ | ⟨hquote, hslash, hlow, hc⟩ := escapeChar_cases c
  · rw [hc]
    exact readText_escape he hu done cs
  · rw [hc]
    exact readText_control hlow done cs
  · rw [hc]
    exact readText_plain hquote hslash hlow done cs

theorem readText_escaped (s done rest : List Char) :
    readText done (s.flatMap escapeChar ++ '"' :: rest) =
      some (String.ofList (done.reverse ++ s), rest) := by
  induction s generalizing done with
  | nil => simp [readText]
  | cons c s ih =>
    rw [List.flatMap_cons, List.append_assoc, readText_escapeChar, ih]
    simp

theorem readToken_quote (s : String) (rest : List Char) :
    readToken ((quote s).toList ++ rest) = some (.scalar (.text s), rest) := by
  have htext : (quote s).toList ++ rest = '"' :: (s.toList.flatMap escapeChar ++ '"' :: rest) := by
    simp [quote]
  rw [htext, readToken, readText_escaped]
  simp

/-! ### Tokens -/

theorem readToken_of_number {cs : List Char} (hcs : ∀ c ∈ cs.head?, c = '-' ∨ c.isDigit = true) :
    readToken cs = (readNumber cs).map fun (d, cs) => (.scalar d, cs) := by
  unfold readToken
  split
  case h_11 => rfl
  all_goals exact absurd (hcs _ rfl) (by decide)

theorem head_toString (n : Int) (rest : List Char) :
    ∀ c ∈ ((toString n).toList ++ rest).head?, c = '-' ∨ c.isDigit = true := by
  intro c hc
  cases n with
  | ofNat m =>
    rw [toList_ofNat, head_toDigits_append] at hc
    exact .inr (Nat.isDigit_of_mem_toDigits (by decide) (by decide) (List.mem_of_head? hc))
  | negSucc m =>
    rw [toList_negSucc] at hc
    cases hc
    exact .inl rfl

theorem readToken_toString {n : Int} {rest : List Char} (hrest : Ends rest) (hn : InWords n) :
    readToken ((toString n).toList ++ rest) = some (.scalar (.int n), rest) := by
  rw [readToken_of_number (head_toString n rest), readNumber_toString hrest hn]
  rfl

/-! ### Reading what was written -/

def skip (cs : List Char) : List Char := cs.dropWhile isSpace

/-- Reading the text leads from one progress to another, and leaves a rest. -/
inductive Takes : List Char → Progress → List Char → Progress → Prop
  | blank {cs rest : List Char} {p : Progress} (h : skip cs = skip rest) : Takes cs p rest p
  | token {cs after rest : List Char} {p q r : Progress} {t : Token}
      (ht : readToken (skip cs) = some (t, after)) (hshort : after.length < (skip cs).length)
      (hp : step p t = some q) (h : Takes after q rest r) : Takes cs p rest r

namespace Takes

theorem trans {cs mid rest : List Char} {p q r : Progress} (h : Takes cs p mid q)
    (h' : Takes mid q rest r) : Takes cs p rest r := by
  induction h with
  | blank hskip =>
    cases h' with
    | blank hskip' => exact .blank (hskip.trans hskip')
    | token ht hshort hp h' => exact .token (hskip ▸ ht) (hskip ▸ hshort) hp h'
  | token ht hshort hp _ ih => exact .token ht hshort hp (ih h')

theorem spaces {sp : List Char} (hsp : ∀ c ∈ sp, isSpace c = true) (cs : List Char) (p : Progress) :
    Takes (sp ++ cs) p cs p :=
  .blank (List.dropWhile_append_of_pos hsp)

theorem one {cs rest : List Char} {p q : Progress} {t : Token} (hblank : skip cs = cs)
    (ht : readToken cs = some (t, rest)) (hshort : rest.length < cs.length)
    (hp : step p t = some q) : Takes cs p rest q :=
  .token (hblank.symm ▸ ht) (hblank.symm ▸ hshort) hp (.blank rfl)

theorem length_skip (cs : List Char) : (skip cs).length ≤ cs.length :=
  (List.dropWhile_sublist _).length_le

/-- The tokens of a text that ends in blanks lead as far as reading it does. -/
theorem tokens_bind {cs rest : List Char} {p q : Progress} (h : Takes cs p rest q)
    (hrest : skip rest = []) {n : Nat} (hn : (skip cs).length < n) :
    (tokens cs n).bind (steps p) = some q := by
  -- Every token shortens the text, so a bound on the tokens that exceeds the text lasts to its end.
  induction h generalizing n with
  | @blank cs rest p hskip =>
    obtain ⟨n, rfl⟩ : ∃ m, n = m + 1 := ⟨n - 1, by omega⟩
    have hcs : cs.dropWhile isSpace = [] := hskip.trans hrest
    rw [tokens, hcs]
    rfl
  | @token cs after rest p q r t ht hshort hp _ ih =>
    obtain ⟨n, rfl⟩ : ∃ m, n = m + 1 := ⟨n - 1, by omega⟩
    have hafter : (skip after).length < n := by
      have := length_skip after
      omega
    have hlater := ih hrest hafter
    have hcs : tokens cs (n + 1) = (tokens after n).map (t :: ·) := by
      unfold skip at ht
      rw [tokens]
      split
      · rename_i hnil
        rw [hnil] at ht
        cases ht
      · rename_i cs' hne
        rw [ht]
    rw [hcs]
    cases hts : tokens after n with
    | none =>
      rw [hts] at hlater
      cases hlater
    | some ts =>
      rw [hts] at hlater
      show (step p t).bind (steps · ts) = some r
      rw [hp]
      exact hlater

end Takes

/-- The datum is written without loss, in at most so many levels. -/
inductive Writable : Nat → Datum → Prop
  | null {n : Nat} : Writable n .null
  | bool {n : Nat} (b : Bool) : Writable n (.bool b)
  | int {n : Nat} {i : Int} (h : InWords i) : Writable n (.int i)
  | text {n : Nat} (s : String) : Writable n (.text s)
  | list {n : Nat} {items : List Datum} (h : ∀ d ∈ items, Writable n d) :
      Writable (n + 1) (.list items)
  | record {n : Nat} {fields : List (String × Datum)} (h : ∀ f ∈ fields, Writable n f.2) :
      Writable (n + 1) (.record fields)

theorem prettyItems_eq (level : Nat) (items : List Datum) :
    prettyItems level items = items.map (prettyAt level) := by
  induction items with
  | nil => rfl
  | cons d ds ih => rw [prettyItems, ih, List.map_cons]

theorem prettyFields_eq (level : Nat) (fields : List (String × Datum)) :
    prettyFields level fields =
      fields.map fun f => quote f.1 ++ ": " ++ prettyAt level f.2 := by
  induction fields with
  | nil => rfl
  | cons f fs ih => rw [prettyFields, ih, List.map_cons]

/-- What follows the first part of a container that is spread over lines. -/
def later (level : Nat) (close : String) : List String → List Char
  | [] => (newline level).toList ++ close.toList
  | p :: ps => ',' :: ((newline (level + 1)).toList ++ (p.toList ++ later level close ps))

theorem toList_newline (level : Nat) :
    (newline level).toList = '\n' :: List.replicate (2 * level) ' ' := by
  simp [newline]

theorem isSpace_newline (level : Nat) : ∀ c ∈ (newline level).toList, isSpace c = true := by
  rw [toList_newline]
  intro c hc
  rcases List.mem_cons.1 hc with rfl | hc
  · rfl
  · rw [(List.mem_replicate.1 hc).2]
    rfl

theorem ends_later (level : Nat) (close : String) (ps : List String) (rest : List Char) :
    Ends (later level close ps ++ rest) := by
  cases ps with
  | nil =>
    rw [later, toList_newline]
    exact ends_newline _
  | cons p ps => exact ends_comma _

theorem toList_intercalate_later (level : Nat) (close p : String) (ps : List String) :
    (String.intercalate ("," ++ newline (level + 1)) (p :: ps)).toList ++
        ((newline level).toList ++ close.toList) =
      p.toList ++ later level close ps := by
  induction ps generalizing p with
  | nil => simp [later]
  | cons q qs ih =>
    rw [String.intercalate_cons_cons, String.toList_append, List.append_assoc, ih, later]
    simp

theorem toList_spread_cons (level : Nat) (left right p : String) (ps : List String) :
    (spread level left right (p :: ps)).toList =
      left.toList ++ ((newline (level + 1)).toList ++ (p.toList ++ later level right ps)) := by
  rw [← toList_intercalate_later]
  simp [spread]

namespace Takes

variable {stack : List Frame} {n : Nat}

/-- A datum that stands where one is expected is read. -/
def Reads (n : Nat) (d : Datum) : Prop :=
  ∀ (level : Nat) (stack : List Frame) (orEnd : Bool) (rest : List Char), Ends rest →
    stack.length + n ≤ depthLimit →
      Takes ((prettyAt level d).toList ++ rest) ⟨stack, .value orEnd⟩ rest ⟨stack, .more d⟩

theorem comma (level : Nat) (rest : List Char) {p q : Progress} (hp : step p .comma = some q) :
    Takes (',' :: ((newline level).toList ++ rest)) p rest q := by
  have hcomma :
      Takes (',' :: ((newline level).toList ++ rest)) p ((newline level).toList ++ rest) q :=
    one rfl rfl (by simp) hp
  exact hcomma.trans (spaces (isSpace_newline level) rest q)

theorem later_items {ds : List Datum} (hds : ∀ d ∈ ds, Reads n d)
    (hdepth : stack.length + 1 + n ≤ depthLimit) (level : Nat) (rest : List Char)
    (acc : List Datum) (d : Datum) :
    Takes (later level "]" (ds.map (prettyAt (level + 1))) ++ rest) ⟨.list acc :: stack, .more d⟩
      rest ⟨stack, .more (.list (acc.reverse ++ d :: ds))⟩ := by
  -- The item that was read last waits in the progress, those before it on the stack.
  induction ds generalizing acc d with
  | nil =>
    have hclose : Takes (']' :: rest) ⟨.list acc :: stack, .more d⟩ rest
        ⟨stack, .more (.list (acc.reverse ++ [d]))⟩ := by
      refine one rfl rfl (by simp) ?_
      simp [step, closeList?]
    rw [List.map_nil, later, List.append_assoc]
    exact (spaces (isSpace_newline level) _ _).trans hclose
  | cons e es ih =>
    have hcomma :
        Takes _ ⟨.list acc :: stack, .more d⟩ _ ⟨.list (d :: acc) :: stack, .value false⟩ :=
      comma (level + 1) ((prettyAt (level + 1) e).toList ++
        (later level "]" (es.map (prettyAt (level + 1))) ++ rest)) rfl
    have hitem := hds e (.head _) (level + 1) (.list (d :: acc) :: stack) false _
      (ends_later level "]" (es.map (prettyAt (level + 1))) rest) (by simpa using hdepth)
    have hmore := ih (fun d hd => hds d (.tail _ hd)) (d :: acc) e
    rw [List.map_cons, later]
    simp only [List.cons_append, List.append_assoc]
    simpa using (hcomma.trans hitem).trans hmore

theorem reads_list {items : List Datum} (h : ∀ d ∈ items, Reads n d) :
    Reads (n + 1) (.list items) := by
  intro level stack orEnd rest hrest hdepth
  have hlimit : stack.length < depthLimit := by omega
  have hopen : ∀ cs,
      Takes ('[' :: cs) ⟨stack, .value orEnd⟩ cs ⟨.list [] :: stack, .value true⟩ := by
    intro cs
    refine one rfl rfl (by simp) ?_
    simp [step, Progress.enter, hlimit]
  rw [prettyAt, prettyItems_eq]
  cases items with
  | nil =>
    have hclose : Takes (']' :: rest) ⟨.list [] :: stack, .value true⟩ rest
        ⟨stack, .more (.list [])⟩ := one rfl rfl (by simp) rfl
    have htext : (spread level "[" "]" []).toList = ['[', ']'] := by simp [spread]
    rw [List.map_nil, htext]
    exact (hopen _).trans hclose
  | cons d ds =>
    have hspaces := spaces (isSpace_newline (level + 1)) ((prettyAt (level + 1) d).toList ++
      (later level "]" (ds.map (prettyAt (level + 1))) ++ rest)) ⟨.list [] :: stack, .value true⟩
    have hitem := h d (.head _) (level + 1) (.list [] :: stack) true _
      (ends_later level "]" (ds.map (prettyAt (level + 1))) rest) (by simp; omega)
    have hmore := later_items (fun d hd => h d (.tail _ hd))
      (show stack.length + 1 + n ≤ depthLimit by omega) level rest [] d
    rw [List.map_cons, toList_spread_cons]
    simp only [List.append_assoc]
    exact (hopen _).trans (hspaces.trans (hitem.trans hmore))

def fieldText (level : Nat) (f : String × Datum) : String := quote f.1 ++ ": " ++ prettyAt level f.2

theorem field {f : String × Datum} (hf : Reads n f.2) {rest : List Char} (hrest : Ends rest)
    (hdepth : stack.length + 1 + n ≤ depthLimit) (level : Nat) (frame : Frame)
    (fields : List (String × Datum)) (orEnd : Bool) :
    Takes ((fieldText level f).toList ++ rest) ⟨frame :: stack, .name fields orEnd⟩ rest
      ⟨.record fields f.1 :: stack, .more f.2⟩ := by
  have hname : ∀ cs, Takes ((quote f.1).toList ++ cs) ⟨frame :: stack, .name fields orEnd⟩ cs
      ⟨frame :: stack, .colon fields f.1⟩ := by
    intro cs
    refine one ?_ (readToken_quote f.1 cs) ?_ rfl
    · simp [skip, quote, isSpace]
    · simp only [quote, String.toList_ofList, List.length_append, List.length_cons]
      omega
  have hcolon : ∀ cs, Takes (':' :: ' ' :: cs) ⟨frame :: stack, .colon fields f.1⟩ cs
      ⟨.record fields f.1 :: stack, .value false⟩ := by
    intro cs
    have htoken : Takes (':' :: ' ' :: cs) ⟨frame :: stack, .colon fields f.1⟩ (' ' :: cs)
        ⟨.record fields f.1 :: stack, .value false⟩ := one rfl rfl (by simp) rfl
    have hblank : ∀ c ∈ [' '], isSpace c = true := by
      intro c hc
      rw [List.mem_singleton.1 hc]
      rfl
    exact htoken.trans (spaces hblank cs _)
  have hvalue := hf level (.record fields f.1 :: stack) false rest hrest (by simpa using hdepth)
  have htext : (fieldText level f).toList ++ rest =
      (quote f.1).toList ++ ':' :: ' ' :: ((prettyAt level f.2).toList ++ rest) := by
    simp [fieldText]
  rw [htext]
  exact (hname _).trans ((hcolon _).trans hvalue)

theorem later_fields {fs : List (String × Datum)} (hfs : ∀ f ∈ fs, Reads n f.2)
    (hdepth : stack.length + 1 + n ≤ depthLimit) (level : Nat) (rest : List Char)
    (acc : List (String × Datum)) (name : String) (d : Datum) :
    Takes (later level "\x7d" (fs.map (fieldText (level + 1))) ++ rest)
      ⟨.record acc name :: stack, .more d⟩ rest
      ⟨stack, .more (.record (acc.reverse ++ (name, d) :: fs))⟩ := by
  induction fs generalizing acc name d with
  | nil =>
    have hclose : Takes ('\x7d' :: rest) ⟨.record acc name :: stack, .more d⟩ rest
        ⟨stack, .more (.record (acc.reverse ++ [(name, d)]))⟩ := by
      refine one rfl rfl (by simp) ?_
      simp [step]
    rw [List.map_nil, later, List.append_assoc]
    exact (spaces (isSpace_newline level) _ _).trans hclose
  | cons e es ih =>
    have hcomma : Takes _ ⟨.record acc name :: stack, .more d⟩ _
        ⟨.record [] "" :: stack, .name ((name, d) :: acc) false⟩ :=
      comma (level + 1) ((fieldText (level + 1) e).toList ++
        (later level "\x7d" (es.map (fieldText (level + 1))) ++ rest)) rfl
    have hfield := field (hfs e (.head _))
      (ends_later level "\x7d" (es.map (fieldText (level + 1))) rest) hdepth (level + 1)
      (.record [] "") ((name, d) :: acc) false
    have hmore := ih (fun f hf => hfs f (.tail _ hf)) ((name, d) :: acc) e.1 e.2
    rw [List.map_cons, later]
    simp only [List.cons_append, List.append_assoc]
    simpa using (hcomma.trans hfield).trans hmore

theorem reads_record {fields : List (String × Datum)} (h : ∀ f ∈ fields, Reads n f.2) :
    Reads (n + 1) (.record fields) := by
  intro level stack orEnd rest hrest hdepth
  have hlimit : stack.length < depthLimit := by omega
  have hopen : ∀ cs, Takes ('\x7b' :: cs) ⟨stack, .value orEnd⟩ cs
      ⟨.record [] "" :: stack, .name [] true⟩ := by
    intro cs
    refine one rfl rfl (by simp) ?_
    simp [step, Progress.enter, hlimit]
  have htexts : prettyFields (level + 1) fields = fields.map (fieldText (level + 1)) :=
    prettyFields_eq (level + 1) fields
  rw [prettyAt, htexts]
  cases fields with
  | nil =>
    have hclose : Takes ('\x7d' :: rest) ⟨.record [] "" :: stack, .name [] true⟩ rest
        ⟨stack, .more (.record [])⟩ := one rfl rfl (by simp) rfl
    have htext : (spread level "\x7b" "\x7d" []).toList = ['\x7b', '\x7d'] := by simp [spread]
    rw [List.map_nil, htext]
    exact (hopen _).trans hclose
  | cons f fs =>
    have hspaces := spaces (isSpace_newline (level + 1)) ((fieldText (level + 1) f).toList ++
      (later level "\x7d" (fs.map (fieldText (level + 1))) ++ rest))
      ⟨.record [] "" :: stack, .name [] true⟩
    have hfield := field (h f (.head _))
      (ends_later level "\x7d" (fs.map (fieldText (level + 1))) rest)
      (show stack.length + 1 + n ≤ depthLimit by omega) (level + 1) (.record [] "") [] true
    have hmore := later_fields (fun f hf => h f (.tail _ hf))
      (show stack.length + 1 + n ≤ depthLimit by omega) level rest [] f.1 f.2
    rw [List.map_cons, toList_spread_cons]
    simp only [List.append_assoc]
    exact (hopen _).trans (hspaces.trans (hfield.trans hmore))

theorem reads_scalar {d : Datum} (text : String) (htext : ∀ level, prettyAt level d = text)
    (hblank : ∀ rest, skip (text.toList ++ rest) = text.toList ++ rest) (hne : text.toList ≠ [])
    (hread : ∀ rest, Ends rest → readToken (text.toList ++ rest) = some (.scalar d, rest)) :
    Reads n d := by
  intro level stack orEnd rest hrest hdepth
  have hlength : rest.length < (text.toList ++ rest).length := by
    have := List.length_pos_iff.2 hne
    rw [List.length_append]
    omega
  rw [htext]
  exact one (hblank rest) (hread rest hrest) hlength rfl

theorem skip_toString (i : Int) (rest : List Char) :
    skip ((toString i).toList ++ rest) = (toString i).toList ++ rest := by
  have hhead := head_toString i rest
  unfold skip
  cases hcs : (toString i).toList ++ rest with
  | nil => rfl
  | cons c cs =>
    rw [hcs] at hhead
    have hc : isSpace c = false := by
      rcases hhead c rfl with rfl | hdigit
      · rfl
      · cases hspace : isSpace c with
        | false => rfl
        | true =>
          simp only [isSpace, Bool.or_eq_true, beq_iff_eq] at hspace
          rcases hspace with ((rfl | rfl) | rfl) | rfl <;> cases hdigit
    rw [List.dropWhile_cons, hc]
    rfl

theorem reads {d : Datum} (h : Writable n d) : Reads n d := by
  induction h with
  | null => exact reads_scalar "null" (fun _ => rfl) (fun _ => rfl) (by decide) fun _ _ => rfl
  | bool b =>
    cases b with
    | false => exact reads_scalar "false" (fun _ => rfl) (fun _ => rfl) (by decide) fun _ _ => rfl
    | true => exact reads_scalar "true" (fun _ => rfl) (fun _ => rfl) (by decide) fun _ _ => rfl
  | @int n i hi =>
    have hne : (toString i).toList ≠ [] := by
      cases i with
      | ofNat m =>
        rw [toList_ofNat]
        exact Nat.toDigits_ne_nil
      | negSucc m =>
        rw [toList_negSucc]
        exact List.cons_ne_nil _ _
    exact reads_scalar (toString i) (fun _ => rfl) (skip_toString i) hne
      fun _ hrest => readToken_toString hrest hi
  | text s =>
    refine reads_scalar (quote s) (fun _ => rfl) (fun rest => ?_) ?_
      fun rest _ => readToken_quote s rest
    · simp [skip, quote, isSpace]
    · simp [quote]
  | list _ ih => exact reads_list ih
  | record _ ih => exact reads_record ih

end Takes

/-- What is written without loss is read back. -/
theorem parse?_pretty {d : Datum} (h : Writable depthLimit d) : parse? (pretty d) = some d := by
  have htakes : Takes (pretty d).toList {} [] { expecting := .more d } := by
    have h := Takes.reads h 0 [] false [] ends_nil (Nat.le_of_eq (Nat.zero_add _))
    rwa [List.append_nil] at h
  have hlength : (skip (pretty d).toList).length < (pretty d).length + 1 := by
    have := Takes.length_skip (pretty d).toList
    rw [String.length_toList] at this
    omega
  rw [parse?, htakes.tokens_bind rfl hlength]

end Storyworld.Json
