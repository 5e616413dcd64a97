import Mathlib.Algebra.Group.Nat.Defs
import Storyworld.Codec.Basic
import Storyworld.Instant
import Storyworld.SessionId
import Storyworld.Proofs.JsonText

/-!
# The header of a save

The identifier of a session and the instant of a save are read back from their written forms:
`SessionId.parse?_text` for every identifier, and `Instant.parse?_text` for every instant that a
clock can show (`Instant.IsValid`).
-/

namespace Storyworld

/-! ### Session identifiers -/

namespace SessionId

theorem hexValue?_hexDigit {n : Nat} (h : n < 16) : hexValue? (hexDigit n) = some n := by
  have hall : ∀ n < 16, hexValue? (hexDigit n) = some n := by decide
  exact hall n h

theorem hexDigit_ne_hyphen {n : Nat} (h : n < 16) : hexDigit n ≠ '-' := by
  have hall : ∀ n < 16, hexDigit n ≠ '-' := by decide
  exact hall n h

/-- The first digits of a number of 32 are its highest. -/
theorem foldl_digits {n : Nat} (hn : n < 16 ^ 32) {k : Nat} (hk : k ≤ 32) :
    ((List.range k).map fun i => n / 16 ^ (31 - i) % 16).foldl (fun m d => m * 16 + d) 0 =
      n / 16 ^ (32 - k) := by
  induction k with
  | zero => exact (Nat.div_eq_of_lt hn).symm
  | succ k ih =>
    have hstep : n / 16 ^ (32 - k) = n / 16 ^ (31 - k) / 16 := by
      rw [Nat.div_div_eq_div_mul, ← Nat.pow_succ]
      congr 2
      omega
    rw [List.range_succ, List.map_append, List.foldl_append, ih (by omega), hstep]
    simp only [List.map_cons, List.map_nil, List.foldl_cons, List.foldl_nil]
    rw [show 32 - (k + 1) = 31 - k by omega]
    omega

theorem ofDigits?_digits (id : SessionId) : ofDigits? id.digits = some id := by
  have hlength : id.digits.length = 32 := by simp [digits]
  have hvalues : id.digits.mapM hexValue? =
      some ((List.range 32).map fun i => id.bits.toNat / 16 ^ (31 - i) % 16) :=
    Datum.mapM_map_some fun i _ => hexValue?_hexDigit (Nat.mod_lt _ (by decide))
  have hvalue := foldl_digits (show id.bits.toNat < 16 ^ 32 from id.bits.isLt) (Nat.le_refl 32)
  unfold ofDigits?
  rw [if_pos hlength, hvalues]
  simp only [Option.bind_eq_bind, Option.bind_some]
  rw [hvalue]
  simp

theorem ofGroups?_join {a b c d e : List Char} (ha : a.length = 8) (hb : b.length = 4)
    (hc : c.length = 4) (hd : d.length = 4) (he : e.length = 12)
    (hplain : ∀ x ∈ a ++ b ++ c ++ d ++ e, (x != '-') = true) :
    ofGroups? (a ++ '-' :: (b ++ '-' :: (c ++ '-' :: (d ++ '-' :: e)))) =
      ofDigits? (a ++ b ++ c ++ d ++ e) := by
  have hform : ((a ++ '-' :: (b ++ '-' :: (c ++ '-' :: (d ++ '-' :: e)))).length = 36 &&
      [8, 13, 18, 23].all fun i =>
        (a ++ '-' :: (b ++ '-' :: (c ++ '-' :: (d ++ '-' :: e))))[i]? == some '-') = true := by
    simp [List.getElem?_append, List.getElem?_cons, ha, hb, hc, hd, he]
  have hdigits : (a ++ '-' :: (b ++ '-' :: (c ++ '-' :: (d ++ '-' :: e)))).filter (· != '-') =
      a ++ b ++ c ++ d ++ e := by
    rw [← List.filter_eq_self.2 hplain]
    simp
  rw [ofGroups?, if_pos hform, hdigits]

theorem parse?_text (id : SessionId) : parse? id.text = some id := by
  have hlength : id.digits.length = 32 := by simp [digits]
  have hjoin : id.digits = id.digits.take 8 ++ (id.digits.drop 8).take 4 ++
      (id.digits.drop 12).take 4 ++ (id.digits.drop 16).take 4 ++ (id.digits.drop 20).take 12 := by
    have hcut : ∀ start size next, start + size = next →
        (id.digits.drop start).take size ++ id.digits.drop next = id.digits.drop start := by
      rintro start size _ rfl
      rw [← List.drop_drop, List.take_append_drop]
    have hlast : (id.digits.drop 20).take 12 = id.digits.drop 20 :=
      List.take_of_length_le (by simp [hlength])
    simp only [List.append_assoc]
    rw [hlast, hcut 16 4 20 rfl, hcut 12 4 16 rfl, hcut 8 4 12 rfl, List.take_append_drop]
  have hplain : ∀ x ∈ id.digits, (x != '-') = true := by
    intro x hx
    obtain ⟨i, -, rfl⟩ := List.mem_map.1 hx
    exact bne_iff_ne.2 (hexDigit_ne_hyphen (Nat.mod_lt _ (by decide)))
  have htext : id.text.toList = id.digits.take 8 ++ '-' :: ((id.digits.drop 8).take 4 ++ '-' ::
      ((id.digits.drop 12).take 4 ++ '-' :: ((id.digits.drop 16).take 4 ++ '-' ::
        (id.digits.drop 20).take 12))) := by
    simp [text]
  have hgroups : ofGroups? id.text.toList = ofDigits? id.digits := by
    rw [hjoin] at hplain
    rw [htext, ofGroups?_join (by simp [hlength]) (by simp [hlength]) (by simp [hlength])
      (by simp [hlength]) (by simp [hlength]) hplain, ← hjoin]
  have hsize : id.text.toList.length = 36 := by
    rw [htext]
    simp [hlength]
  unfold parse?
  simp only [hsize]
  rw [if_neg (by decide), if_pos trivial, hgroups, ofDigits?_digits]

end SessionId

/-! ### Instants -/

namespace Instant

/-- A clock can show the instant. -/
structure IsValid (t : Instant) : Prop where
  date : t.date.isValid = true
  hour : t.hour < 24
  minute : t.minute < 60
  second : t.second ≤ 60
  nano : t.nano < 1000000000

theorem isValid_epoch : epoch.IsValid :=
  ⟨by decide, by decide, by decide, by decide, by decide⟩

theorem ofDigits_eq (ds : List Char) : ofDigits ds = Nat.ofDigitChars 10 ds 0 := by
  unfold ofDigits Nat.ofDigitChars
  simp only [Nat.mul_comm]

theorem toList_padded (width n : Nat) :
    (padded width n).toList =
      List.replicate (width - (Nat.toDigits 10 n).length) '0' ++ Nat.toDigits 10 n := by
  simp [padded, ← String.length_toList]

theorem isDigit_padded (width n : Nat) : ∀ c ∈ (padded width n).toList, c.isDigit = true := by
  rw [toList_padded]
  intro c hc
  rcases List.mem_append.1 hc with hc | hc
  · rw [(List.mem_replicate.1 hc).2]
    rfl
  · exact Nat.isDigit_of_mem_toDigits (by decide) (by decide) hc

theorem padded_ne_nil (width n : Nat) : (padded width n).toList ≠ [] := by
  rw [toList_padded]
  exact List.append_ne_nil_of_right_ne_nil _ Nat.toDigits_ne_nil

theorem ofDigits_padded (width n : Nat) : ofDigits (padded width n).toList = n := by
  have hzeros : ∀ k, Nat.ofDigitChars 10 (List.replicate k '0') 0 = 0 := by
    intro k
    induction k with
    | zero => rfl
    | succ k ih => rwa [List.replicate_succ, Nat.ofDigitChars, List.foldl_cons]
  rw [ofDigits_eq, toList_padded, Nat.ofDigitChars, List.foldl_append]
  show Nat.ofDigitChars 10 _ (Nat.ofDigitChars 10 _ 0) = n
  rw [hzeros, Nat.ofDigitChars_toDigits (by decide) (by decide)]

theorem length_padded {width n : Nat} (hwidth : 0 < width) (hn : n < 10 ^ width) :
    (padded width n).toList.length = width := by
  have hlength := (Nat.length_toDigits_le_iff (by decide) hwidth).2 hn
  rw [toList_padded, List.length_append, List.length_replicate]
  omega

theorem number?_append {most : Nat} {ds rest : List Char} (hds : ∀ c ∈ ds, c.isDigit = true)
    (hne : ds ≠ []) (hmost : ds.length ≤ most)
    (hrest : ds.length = most ∨ ∀ c ∈ rest.head?, c.isDigit = false) :
    number? most (ds ++ rest) = some (ofDigits ds, rest) := by
  have hstop : ∀ c ∈ (rest.take (most - ds.length)).head?, c.isDigit = false := by
    intro c hc
    rcases hrest with hfull | hrest
    · rw [hfull, Nat.sub_self] at hc
      cases hc
    · cases rest with
      | nil => simp at hc
      | cons d rest =>
        cases hk : most - ds.length with
        | zero =>
          rw [hk] at hc
          cases hc
        | succ k =>
          rw [hk] at hc
          exact hrest c hc
  have htake : ((ds ++ rest).take most).takeWhile Char.isDigit = ds := by
    rw [List.take_append, List.take_of_length_le hmost]
    exact (Json.takeWhile_dropWhile_append hds hstop).1
  have hempty : ds.isEmpty = false := List.isEmpty_eq_false_iff.2 hne
  unfold number?
  dsimp only
  rw [htake, hempty, List.drop_left]
  rfl

theorem number?_padded {width n : Nat} (hwidth : 0 < width) (hn : n < 10 ^ width)
    (rest : List Char) : number? width ((padded width n).toList ++ rest) = some (n, rest) := by
  have hlength := length_padded hwidth hn
  rw [number?_append (isDigit_padded width n) (padded_ne_nil width n) (Nat.le_of_eq hlength)
    (.inl hlength), ofDigits_padded]

theorem isBlank_of_isDigit {c : Char} (h : c.isDigit = true) : Text.isBlank c = false := by
  have hbounds : 48 ≤ c.toNat ∧ c.toNat ≤ 57 := by
    simpa [Char.isDigit, UInt32.le_iff_toNat_le] using h
  simp only [Text.isBlank, Bool.or_eq_false_iff, Bool.and_eq_false_iff, decide_eq_false_iff_not,
    beq_eq_false_iff_ne]
  omega

theorem skipBlanks_padded (width n : Nat) (rest : List Char) :
    skipBlanks ((padded width n).toList ++ rest) = (padded width n).toList ++ rest := by
  have hdigit := isDigit_padded width n
  unfold skipBlanks
  cases hcs : (padded width n).toList with
  | nil => exact absurd hcs (padded_ne_nil width n)
  | cons c cs =>
    rw [hcs] at hdigit
    rw [List.cons_append, List.dropWhile_cons, isBlank_of_isDigit (hdigit c (.head _))]
    rfl

theorem field?_padded {n : Nat} (hn : n < 100) (rest : List Char) :
    field? ((padded 2 n).toList ++ rest) = some (n, rest) := by
  rw [field?, skipBlanks_padded, number?_padded (by decide) hn]

theorem fraction?_padded {width n : Nat} (hwidth : 0 < width) (hmost : width ≤ 9)
    (hn : n < 10 ^ width) (rest : List Char) :
    fraction? ('.' :: ((padded width n).toList ++ 'Z' :: rest)) =
      some (n * 10 ^ (9 - width), 'Z' :: rest) := by
  have hlength := length_padded hwidth hn
  have hnumber : number? 9 ((padded width n).toList ++ 'Z' :: rest) = some (n, 'Z' :: rest) := by
    have hstop : ∀ c ∈ ('Z' :: rest).head?, c.isDigit = false := by
      rintro c ⟨⟩
      rfl
    rw [number?_append (isDigit_padded width n) (padded_ne_nil width n) (by omega) (.inr hstop),
      ofDigits_padded]
  simp [fraction?, hnumber, hlength]

theorem fraction?_fractionText {nano : Nat} (h : nano < 1000000000) (rest : List Char) :
    fraction? ((fractionText nano).toList ++ 'Z' :: rest) = some (nano, 'Z' :: rest) := by
  have hpoint : ∀ p : String,
      ("." ++ p).toList ++ 'Z' :: rest = '.' :: (p.toList ++ 'Z' :: rest) := by
    simp
  unfold fractionText
  split
  · rename_i hzero
    rw [eq_of_beq hzero]
    rfl
  split
  · rename_i hmilli
    have hwhole : nano / 1000000 * 10 ^ (9 - 3) = nano :=
      Nat.div_mul_cancel (Nat.dvd_of_mod_eq_zero (eq_of_beq hmilli))
    have hsmall : nano / 1000000 < 10 ^ 3 := by omega
    rw [hpoint, fraction?_padded (by decide) (by decide) hsmall, hwhole]
  split
  · rename_i hmicro
    have hwhole : nano / 1000 * 10 ^ (9 - 6) = nano :=
      Nat.div_mul_cancel (Nat.dvd_of_mod_eq_zero (eq_of_beq hmicro))
    have hsmall : nano / 1000 < 10 ^ 6 := by omega
    rw [hpoint, fraction?_padded (by decide) (by decide) hsmall, hwhole]
  · rw [hpoint, fraction?_padded (by decide) (by decide) h, Nat.sub_self, Nat.pow_zero, Nat.mul_one]

theorem year?_yearText (year : Int) (rest : List Char) :
    year? ((yearText year).toList ++ '-' :: rest) = some (year, '-' :: rest) := by
  -- A sign is followed by as many digits as there are.
  have hsigned : ∀ n : Nat, number? ((padded 4 n).toList ++ '-' :: rest).length
      ((padded 4 n).toList ++ '-' :: rest) = some (n, '-' :: rest) := by
    intro n
    have hstop : ∀ c ∈ ('-' :: rest).head?, c.isDigit = false := by
      rintro c ⟨⟩
      rfl
    rw [number?_append (isDigit_padded 4 n) (padded_ne_nil 4 n) (by simp) (.inr hstop),
      ofDigits_padded]
  have hminus : ∀ cs, skipBlanks ('-' :: cs) = '-' :: cs := fun _ => rfl
  have hplus : ∀ cs, skipBlanks ('+' :: cs) = '+' :: cs := fun _ => rfl
  unfold yearText
  split
  · rename_i hyear
    have hnumber := number?_padded (by decide) (show year.natAbs < 10 ^ 4 by omega) ('-' :: rest)
    have hvalue : (year.natAbs : Int) = year := by omega
    have hdigit : ∀ c cs, (padded 4 year.natAbs).toList ++ '-' :: rest = c :: cs →
        c.isDigit = true := by
      intro c cs hcs
      cases hp : (padded 4 year.natAbs).toList with
      | nil => exact absurd hp (padded_ne_nil 4 year.natAbs)
      | cons d ds =>
        rw [hp] at hcs
        cases hcs
        exact isDigit_padded 4 year.natAbs c (by rw [hp]; exact .head _)
    unfold year?
    rw [skipBlanks_padded]
    split
    · rename_i hcs
      exact absurd (hdigit _ _ hcs) (by decide)
    · rename_i hcs
      exact absurd (hdigit _ _ hcs) (by decide)
    · simp only [hnumber, Option.map_some, hvalue]
  · rename_i hyear
    split
    · have htext : ("-" ++ padded 4 year.natAbs).toList ++ '-' :: rest =
          '-' :: ((padded 4 year.natAbs).toList ++ '-' :: rest) := by
        simp
      have hvalue : -(year.natAbs : Int) = year := by omega
      simp only [htext, year?, hminus, hsigned, Option.map_some, hvalue]
    · have htext : ("+" ++ padded 4 year.natAbs).toList ++ '-' :: rest =
          '+' :: ((padded 4 year.natAbs).toList ++ '-' :: rest) := by
        simp
      have hvalue : (year.natAbs : Int) = year := by omega
      simp only [htext, year?, hplus, hsigned, Option.map_some, hvalue]

theorem ofLocal?_utc {t : Instant} (h : t.IsValid) :
    ofLocal? t.date t.hour t.minute t.second t.nano 0 = some t := by
  obtain ⟨hdate, hhour, hminute, hsecond, -⟩ := h
  have hclock : (t.date.isValid && t.hour < 24 && t.minute < 60 && t.second ≤ 60) = true := by
    simp [hdate, hhour, hminute, hsecond]
  have htotal : (t.hour : Int) * 60 + t.minute - 0 = ((t.hour * 60 + t.minute : Nat) : Int) := by
    omega
  have hlow : ¬((t.hour * 60 + t.minute : Nat) : Int) < 0 := by omega
  have hhigh : ((t.hour * 60 + t.minute : Nat) : Int) < 24 * 60 := by omega
  have hday :
      (((t.hour * 60 + t.minute : Nat) : Int) % (24 * 60)).toNat = t.hour * 60 + t.minute := by
    omega
  have hback :
      (t.hour * 60 + t.minute) / 60 = t.hour ∧ (t.hour * 60 + t.minute) % 60 = t.minute := by
    omega
  unfold ofLocal?
  rw [hclock]
  simp only [htotal, if_neg hlow, if_pos hhigh, hday, hback, if_pos hdate]
  rfl

theorem parse?_text {t : Instant} (h : t.IsValid) : parse? t.text = some t := by
  obtain ⟨hmonth, hday⟩ : t.date.month < 100 ∧ t.date.day < 100 := by
    have hvalid := h.date
    simp only [Date.isValid, Bool.and_eq_true, decide_eq_true_eq] at hvalid
    have hdays : Date.daysInMonth t.date.year t.date.month ≤ 31 := by
      unfold Date.daysInMonth
      repeat' split
      all_goals omega
    omega
  have htext : t.text.toList = (yearText t.date.year).toList ++ '-' ::
      ((padded 2 t.date.month).toList ++ '-' :: ((padded 2 t.date.day).toList ++ 'T' ::
        ((padded 2 t.hour).toList ++ ':' :: ((padded 2 t.minute).toList ++ ':' ::
          ((padded 2 t.second).toList ++ ((fractionText t.nano).toList ++ ['Z'])))))) := by
    simp [text]
  have hmark : ∀ cs, mark? '-' ('-' :: cs) = some cs := fun _ => rfl
  have hcolon : ∀ cs, mark? ':' (':' :: cs) = some cs := fun _ => rfl
  have hend : offset? (skipBlanks ['Z']) = some (0, []) := rfl
  have hhour : t.hour < 100 := by have := h.hour; omega
  have hminute : t.minute < 100 := by have := h.minute; omega
  have hsecond : t.second < 100 := by have := h.second; omega
  unfold parse?
  rw [htext, year?_yearText]
  simp only [Option.bind_eq_bind, Option.bind_some, hmark, field?_padded hmonth, field?_padded hday]
  simp only [field?_padded hhour, field?_padded hminute, field?_padded hsecond, hcolon,
    fraction?_fractionText h.nano, hend, Option.bind_some]
  rw [if_neg (by decide), if_neg (by decide)]
  exact ofLocal?_utc h

end Instant

end Storyworld
