import Mathlib.Algebra.Group.Nat.Defs
import PeerWatch.Calendar.DayText
import PeerWatch.Proofs.Calendar.Dates

/-!
# Days and their texts

Every day of the calendar can be read from its own text, whatever its year, so
different days have different texts.  Texts compare as the days they name as
long as the years have four digits and no sign.  A text with a sign comes before
all of these, whether its year is an earlier one or a later.

* `Day.parse_text`, `Day.text_injective`;
* `Day.text_lt_of_lt`, `Day.text_lt_of_not_plain` — the order of texts.
-/

namespace PeerWatch.Calendar

section Digits

/-- A padded number is its digits after as many zeros as are missing. -/
theorem toList_padded (width n : Nat) :
    (padded width n).toList =
      List.replicate (width - (Nat.toDigits 10 n).length) '0' ++ Nat.toDigits 10 n :=
  String.toList_ofList

/-- A padded number consists of digits. -/
theorem isDigit_of_mem_padded {width n : Nat} {c : Char} (h : c ∈ (padded width n).toList) :
    c.isDigit := by
  rw [toList_padded, List.mem_append] at h
  rcases h with h | h
  · rw [List.eq_of_mem_replicate h]
    rfl
  · exact Nat.isDigit_of_mem_toDigits (by decide) (by decide) h

/-- The digits of a padded number give the number. -/
theorem ofDigitChars_padded (width n : Nat) :
    Nat.ofDigitChars 10 (padded width n).toList 0 = n := by
  rw [toList_padded, Nat.ofDigitChars_append, Nat.ofDigitChars_replicate_zero, Nat.mul_zero,
    Nat.ofDigitChars_ten_toDigits]

/-- A number that fits its width is padded to exactly that width. -/
theorem length_padded {width n : Nat} (hwidth : 0 < width) (hn : n < 10 ^ width) :
    (padded width n).toList.length = width := by
  have := (Nat.length_toDigits_le_iff (by decide) hwidth).2 hn
  rw [toList_padded, List.length_append, List.length_replicate]
  omega

/-- A padded number has a first digit. -/
theorem exists_padded_eq_cons (width n : Nat) :
    ∃ c rest, (padded width n).toList = c :: rest ∧ c.isDigit := by
  cases h : (padded width n).toList with
  | nil =>
      rw [toList_padded, List.append_eq_nil_iff] at h
      exact absurd h.2 Nat.toDigits_ne_nil
  | cons c rest => exact ⟨c, rest, rfl, isDigit_of_mem_padded (h ▸ List.mem_cons_self)⟩

/-- Digits only add to the number read so far. -/
theorem le_ofDigitChars (ds : List Char) (value : Nat) : value ≤ Nat.ofDigitChars 10 ds value := by
  induction ds generalizing value with
  | nil => exact Nat.le_refl _
  | cons c ds ih =>
      rw [Nat.ofDigitChars_cons]
      have := ih (10 * value + (c.toNat - '0'.toNat))
      omega

/-- Digits are read up to their end. -/
theorem readDigits_append {ds rest : List Char} (hds : ∀ c ∈ ds, c.isDigit)
    (hrest : ∀ c ∈ rest.head?, c.isDigit = false) {width : Option Nat}
    (hwidth : ∀ w ∈ width, ds.length ≤ w) {value : Nat}
    (hvalue : Nat.ofDigitChars 10 ds value ≤ Day.maxWord) :
    Day.readDigits width value (ds ++ rest) = .ok (Nat.ofDigitChars 10 ds value, rest) := by
  induction ds generalizing width value with
  | nil =>
      rw [List.nil_append, Nat.ofDigitChars_nil]
      cases rest with
      | nil => unfold Day.readDigits; split <;> simp_all
      | cons c rest =>
          have hc : c.isDigit = false := hrest c rfl
          unfold Day.readDigits
          split <;> simp_all
  | cons c ds ih =>
      rw [Nat.ofDigitChars_cons] at hvalue ⊢
      have hstep : value * 10 + (c.toNat - 48) = 10 * value + (c.toNat - '0'.toNat) := by
        rw [Nat.mul_comm]
        rfl
      have hnext : 10 * value + (c.toNat - '0'.toNat) ≤ Day.maxWord :=
        Nat.le_trans (le_ofDigitChars ds _) hvalue
      have hc : c.isDigit = true := hds c List.mem_cons_self
      have htail : Day.readDigits (width.map (· - 1)) (10 * value + (c.toNat - '0'.toNat))
          (ds ++ rest) =
            .ok (Nat.ofDigitChars 10 ds (10 * value + (c.toNat - '0'.toNat)), rest) := ih
        (fun d hd => hds d (List.mem_cons_of_mem _ hd))
        (by
          intro w hw
          obtain ⟨w', hw', rfl⟩ := Option.map_eq_some_iff.1 hw
          have := hwidth w' hw'
          simp only [List.length_cons] at this
          omega)
        hvalue
      have hunfold : width ≠ some 0 → Day.readDigits width value (c :: (ds ++ rest)) =
          Day.readDigits (width.map (· - 1)) (10 * value + (c.toNat - '0'.toNat)) (ds ++ rest) := by
        intro hne
        rw [Day.readDigits]
        · simp only [hc, hstep, hnext, if_true]
        · exact hne
      rw [List.cons_append, hunfold, htail]
      intro heq
      subst heq
      exact absurd (hwidth 0 rfl) (by simp)

/-- A padded number is read back. -/
theorem readNumber_padded {width : Option Nat} {w n : Nat} {rest : List Char}
    (hrest : ∀ c ∈ rest.head?, c.isDigit = false)
    (hwidth : ∀ most ∈ width, (padded w n).toList.length ≤ most) (hn : n ≤ Day.maxWord) :
    Day.readNumber width ((padded w n).toList ++ rest) = .ok (n, rest) := by
  obtain ⟨c, ds, hcons, hc⟩ := exists_padded_eq_cons w n
  have hread : Day.readDigits width 0 ((padded w n).toList ++ rest) =
      .ok (Nat.ofDigitChars 10 (padded w n).toList 0, rest) :=
    readDigits_append (fun c hc => isDigit_of_mem_padded hc) hrest hwidth
      (by rwa [ofDigitChars_padded])
  rw [ofDigitChars_padded] at hread
  rw [← hread, hcons, List.cons_append]
  exact if_pos hc

end Digits

section Reading

/-- A digit stands between the codes 48 and 57. -/
theorem toNat_of_isDigit {c : Char} (h : c.isDigit) : 48 ≤ c.toNat ∧ c.toNat ≤ 57 := by
  simpa [Char.isDigit, UInt32.le_iff_toNat_le] using h

/-- Digits are no white space. -/
theorem isBlank_of_isDigit {c : Char} (h : c.isDigit) : Text.isBlank c = false := by
  have := toNat_of_isDigit h
  simp only [Text.isBlank, Bool.or_eq_false_iff, Bool.and_eq_false_iff, decide_eq_false_iff_not]
  omega

/-- White space is not skipped where a digit comes first. -/
theorem dropWhile_isBlank_padded (w n : Nat) (rest : List Char) :
    ((padded w n).toList ++ rest).dropWhile Text.isBlank = (padded w n).toList ++ rest := by
  obtain ⟨c, ds, hcons, hc⟩ := exists_padded_eq_cons w n
  rw [hcons, List.cons_append, List.dropWhile_cons_of_neg]
  simp [isBlank_of_isDigit hc]

/-- A month or a day of the month is read back. -/
theorem readPart_padded {most n : Nat} {rest : List Char} (hn : 1 ≤ n ∧ n ≤ most)
    (hmost : most < 100) (hrest : ∀ c ∈ rest.head?, c.isDigit = false) :
    Day.readPart most ((padded 2 n).toList ++ rest) = .ok (n, rest) := by
  have hlength : (padded 2 n).toList.length = 2 := length_padded (by decide) (by omega)
  have hread : Day.readNumber (some 2) ((padded 2 n).toList ++ rest) = .ok (n, rest) :=
    readNumber_padded hrest (by simp [hlength]) (by simp only [Day.maxWord]; omega)
  simp only [Day.readPart, dropWhile_isBlank_padded, hread]
  exact if_pos hn

/-- A year that was read, if 32 bits hold it. -/
def boundedYear (sign : Int) (result : Nat × List Char) :
    Except Day.ParseError (Int × List Char) :=
  let year := sign * result.1
  if -2147483648 ≤ year ∧ year ≤ 2147483647 then .ok (year, result.2) else .error .outOfRange

/-- A year after a minus is read to its last digit, and counted backwards. -/
theorem readYear_minus (text : List Char) :
    Day.readYear ('-' :: text) = (Day.readNumber none text).bind (boundedYear (-1)) := rfl

theorem readYear_plus (text : List Char) :
    Day.readYear ('+' :: text) = (Day.readNumber none text).bind (boundedYear 1) := rfl

/-- A year without a sign is read to its fourth digit. -/
theorem readYear_padded (w n : Nat) (rest : List Char) :
    Day.readYear ((padded w n).toList ++ rest) =
      (Day.readNumber (some 4) ((padded w n).toList ++ rest)).bind (boundedYear 1) := by
  obtain ⟨c, ds, hcons, hc⟩ := exists_padded_eq_cons w n
  rw [Day.readYear, dropWhile_isBlank_padded, hcons, List.cons_append]
  split
  · next heq =>
      obtain ⟨rfl, _⟩ := List.cons.injEq .. ▸ heq
      cases hc
  · next heq =>
      obtain ⟨rfl, _⟩ := List.cons.injEq .. ▸ heq
      cases hc
  · rfl

/-- A year is read back, with its sign if it has one. -/
theorem readYear_yearText {year : Int} {rest : List Char} (hyear : year.natAbs < 1000000)
    (hrest : ∀ c ∈ rest.head?, c.isDigit = false) :
    Day.readYear ((yearText year).toList ++ rest) = .ok (year, rest) := by
  have hword : year.natAbs ≤ Day.maxWord := by
    simp only [Day.maxWord]
    omega
  have hread : ∀ width : Option Nat,
      (∀ most ∈ width, (padded 4 year.natAbs).toList.length ≤ most) →
      Day.readNumber width ((padded 4 year.natAbs).toList ++ rest) = .ok (year.natAbs, rest) :=
    fun _ hwidth => readNumber_padded hrest hwidth hword
  have hbounded : ∀ sign : Int, sign * year.natAbs = year →
      boundedYear sign (year.natAbs, rest) = .ok (year, rest) := by
    intro sign hsign
    simp only [boundedYear, hsign]
    exact if_pos (by omega)
  unfold yearText
  split
  case isTrue hneg =>
    have hminus : ("-" ++ padded 4 year.natAbs).toList = '-' :: (padded 4 year.natAbs).toList := by
      simp
    rw [hminus, List.cons_append, readYear_minus, hread none (by simp)]
    exact hbounded (-1) (by omega)
  case isFalse hneg =>
    split
    case isTrue hshort =>
      have hlength : (padded 4 year.natAbs).toList.length = 4 :=
        length_padded (by decide) (by omega)
      rw [readYear_padded, hread (some 4) (by simp [hlength])]
      exact hbounded 1 (by omega)
    case isFalse hlong =>
      have hplus : ("+" ++ padded 4 year.natAbs).toList = '+' :: (padded 4 year.natAbs).toList := by
        simp
      rw [hplus, List.cons_append, readYear_plus, hread none (by simp)]
      exact hbounded 1 (by omega)

namespace Day

/-- The text of a day: its year, and month and day in two digits each. -/
theorem toList_text (d : Day) :
    d.text.toList = (yearText d.civil.year).toList ++
      '-' :: ((padded 2 d.civil.month).toList ++ '-' :: ((padded 2 d.civil.day).toList ++ [])) := by
  simp [text]

/-- **Every day is read from its own text.** -/
theorem parse_text (d : Day) : Day.parse d.text = .ok d := by
  obtain ⟨hmonthFirst, hmonthLast, hdayFirst, hdayLast⟩ := d.isValid_civil
  have hhyphen : ∀ rest : List Char, ∀ c ∈ ('-' :: rest).head?, c.isDigit = false := by
    intro rest c hc
    cases hc
    rfl
  have hyear := readYear_yearText d.natAbs_civil_year_lt (hhyphen
    ((padded 2 d.civil.month).toList ++ '-' :: ((padded 2 d.civil.day).toList ++ [])))
  have hmonth := readPart_padded ⟨hmonthFirst, hmonthLast⟩ (by decide)
    (hhyphen ((padded 2 d.civil.day).toList ++ []))
  have hend : Day.readPart 31 ((padded 2 d.civil.day).toList ++ []) = .ok (d.civil.day, []) :=
    readPart_padded ⟨hdayFirst, Nat.le_trans hdayLast daysInMonth_le⟩ (by decide) (by simp)
  have hcivil : ofCivil? ⟨d.civil.year, d.civil.month, d.civil.day⟩ = some d := ofCivil?_civil d
  simp only [Day.parse, toList_text, hyear, bind, Except.bind, readHyphen, hmonth, hend,
    List.isEmpty_nil, if_true, hcivil]

/-- **Different days have different texts.** -/
theorem text_injective {a b : Day} (h : a.text = b.text) : a = b := by
  have hread : Day.parse a.text = Day.parse b.text := by rw [h]
  rw [parse_text, parse_text] at hread
  exact Except.ok.inj hread

end Day

end Reading

section Order

/-- Texts whose beginnings are of one length and differ compare as these. -/
theorem append_lt_append {xs ys : List Char} (hlength : xs.length = ys.length) (h : xs < ys)
    (s t : List Char) : xs ++ s < ys ++ t := by
  induction xs generalizing ys with
  | nil =>
      cases ys with
      | nil => exact absurd h (List.lt_irrefl _)
      | cons y ys => cases hlength
  | cons x xs ih =>
      cases ys with
      | nil => cases hlength
      | cons y ys =>
          simp only [List.cons_append, List.cons_lt_cons_iff] at h ⊢
          rcases h with h | ⟨rfl, h⟩
          · exact .inl h
          · exact .inr ⟨rfl, ih (Nat.succ.inj hlength) h⟩

/-- Digits give a number below the power of ten of their count. -/
theorem ofDigitChars_lt {ds : List Char} (hds : ∀ c ∈ ds, c.isDigit) :
    Nat.ofDigitChars 10 ds 0 < 10 ^ ds.length := by
  induction ds with
  | nil => decide
  | cons c ds ih =>
      have hc := toNat_of_isDigit (hds c List.mem_cons_self)
      have hrest := ih fun d hd => hds d (List.mem_cons_of_mem _ hd)
      have hzero : '0'.toNat = 48 := rfl
      rw [Nat.ofDigitChars_cons, Nat.ofDigitChars_eq_ofDigitChars_zero, List.length_cons,
        Nat.pow_succ, hzero]
      have hdigit : 10 * 0 + (c.toNat - 48) ≤ 9 := by omega
      have := Nat.mul_le_mul_left (10 ^ ds.length) hdigit
      omega

/-- Digits of one length compare as the numbers they give. -/
theorem digits_lt_of_ofDigitChars_lt {xs ys : List Char} (hxs : ∀ c ∈ xs, c.isDigit)
    (hys : ∀ c ∈ ys, c.isDigit) (hlength : xs.length = ys.length)
    (h : Nat.ofDigitChars 10 xs 0 < Nat.ofDigitChars 10 ys 0) : xs < ys := by
  induction xs generalizing ys with
  | nil =>
      cases ys with
      | nil => exact absurd h (Nat.lt_irrefl _)
      | cons y ys => cases hlength
  | cons x xs ih =>
      cases ys with
      | nil => cases hlength
      | cons y ys =>
          have hx := toNat_of_isDigit (hxs x List.mem_cons_self)
          have hy := toNat_of_isDigit (hys y List.mem_cons_self)
          have hxs' : ∀ c ∈ xs, c.isDigit := fun c hc => hxs c (List.mem_cons_of_mem _ hc)
          have hys' : ∀ c ∈ ys, c.isDigit := fun c hc => hys c (List.mem_cons_of_mem _ hc)
          have hlength' : xs.length = ys.length := Nat.succ.inj hlength
          have hzero : '0'.toNat = 48 := rfl
          rw [Nat.ofDigitChars_cons, Nat.ofDigitChars_cons, Nat.ofDigitChars_eq_ofDigitChars_zero,
            Nat.ofDigitChars_eq_ofDigitChars_zero (l := ys), hlength', hzero] at h
          rw [List.cons_lt_cons_iff]
          have hybound := ofDigitChars_lt hys'
          by_cases heq : x.toNat = y.toNat
          · rw [heq] at h
            exact .inr ⟨Char.toNat_inj.1 heq, ih hxs' hys' hlength' (by omega)⟩
          · by_cases hlt : x.toNat < y.toNat
            · exact .inl hlt
            · -- a greater first digit outweighs all that follow
              have hdigit : 10 * 0 + (y.toNat - 48) + 1 ≤ 10 * 0 + (x.toNat - 48) := by omega
              have := Nat.mul_le_mul_left (10 ^ ys.length) hdigit
              rw [Nat.mul_add, Nat.mul_one] at this
              omega

/-- Numbers padded to one width compare as numbers, with whatever follows. -/
theorem padded_append_lt {width m n : Nat} (hwidth : 0 < width) (hn : n < 10 ^ width)
    (h : m < n) (s t : List Char) :
    (padded width m).toList ++ s < (padded width n).toList ++ t := by
  have hm : (padded width m).toList.length = width := length_padded hwidth (by omega)
  have hn : (padded width n).toList.length = width := length_padded hwidth hn
  refine append_lt_append (hm.trans hn.symm) ?_ s t
  refine digits_lt_of_ofDigitChars_lt (fun c hc => isDigit_of_mem_padded hc)
    (fun c hc => isDigit_of_mem_padded hc) (hm.trans hn.symm) ?_
  rwa [ofDigitChars_padded, ofDigitChars_padded]

namespace Day

/-- The year of the day is written with four digits and no sign. -/
def HasPlainYear (d : Day) : Prop := 0 ≤ d.civil.year ∧ d.civil.year ≤ 9999

instance (d : Day) : Decidable d.HasPlainYear := inferInstanceAs (Decidable (_ ∧ _))

/-- A plain year is written in four digits. -/
theorem HasPlainYear.yearText {d : Day} (h : d.HasPlainYear) :
    yearText d.civil.year = padded 4 d.civil.year.toNat := by
  obtain ⟨hfirst, hlast⟩ := h
  have habs : d.civil.year.natAbs = d.civil.year.toNat := by omega
  rw [Calendar.yearText, if_neg (by omega), if_pos hlast, habs]

/-- A later day has a later text, as long as years are plain. -/
theorem text_lt_of_lt {a b : Day} (ha : a.HasPlainYear) (hb : b.HasPlainYear) (h : a < b) :
    a.text < b.text := by
  show a.text.toList < b.text.toList
  obtain ⟨_, hamonth, _, _⟩ := a.isValid_civil
  obtain ⟨_, hbmonth, _, hbday⟩ := b.isValid_civil
  have hbday : b.civil.day ≤ 31 := Nat.le_trans hbday daysInMonth_le
  rw [toList_text, toList_text, ha.yearText, hb.yearText]
  have hyears := ha.1
  have hyears := hb.1
  have hyears := hb.2
  rcases lt_iff_civil.1 h with hyear | ⟨hyear, hmonth | ⟨hmonth, hday⟩⟩
  · exact padded_append_lt (by decide) (by omega) (by omega) _ _
  · rw [hyear]
    refine List.append_left_lt (List.cons_lt_cons_iff.2 (.inr ⟨rfl, ?_⟩))
    exact padded_append_lt (by decide) (by omega) hmonth _ _
  · rw [hyear, hmonth]
    refine List.append_left_lt (List.cons_lt_cons_iff.2 (.inr ⟨rfl, ?_⟩))
    refine List.append_left_lt (List.cons_lt_cons_iff.2 (.inr ⟨rfl, ?_⟩))
    exact padded_append_lt (by decide) (by omega) hday _ _

/-- A sign stands before all digits: whatever year it belongs to, the day has a text
before those of plain years. -/
theorem text_lt_of_not_plain {a b : Day} (ha : ¬ a.HasPlainYear) (hb : b.HasPlainYear) :
    a.text < b.text := by
  show a.text.toList < b.text.toList
  obtain ⟨c, ds, hcons, hc⟩ := exists_padded_eq_cons 4 b.civil.year.toNat
  have hc := toNat_of_isDigit hc
  obtain ⟨sign, hsign, htext⟩ : ∃ sign : Char, sign.toNat ≤ 45 ∧
      (yearText a.civil.year).toList = sign :: (padded 4 a.civil.year.natAbs).toList := by
    by_cases hneg : a.civil.year < 0
    · exact ⟨'-', by decide, by rw [yearText, if_pos hneg]; simp⟩
    · have hlate : ¬ a.civil.year ≤ 9999 := fun hle => ha ⟨by omega, hle⟩
      exact ⟨'+', by decide, by rw [yearText, if_neg hneg, if_neg hlate]; simp⟩
  rw [toList_text, toList_text, hb.yearText, hcons, htext, List.cons_append, List.cons_append,
    List.cons_lt_cons_iff]
  refine .inl ?_
  show sign.toNat < c.toNat
  omega

/-- **Texts compare as days,** as long as both years are plain. -/
theorem text_lt_iff {a b : Day} (ha : a.HasPlainYear) (hb : b.HasPlainYear) :
    a.text < b.text ↔ a < b := by
  refine ⟨fun h => ?_, text_lt_of_lt ha hb⟩
  rcases Int.lt_trichotomy a.number b.number with hlt | heq | hgt
  · exact hlt
  · have hday : a = b := by
      cases a
      cases b
      simp_all
    exact absurd (hday ▸ h) (String.lt_irrefl _)
  · exact absurd (text_lt_of_lt hb ha hgt) (String.lt_asymm h)

/-- A later day is in no earlier year. -/
theorem year_le_of_le {a b : Day} (h : a ≤ b) : a.civil.year ≤ b.civil.year := by
  by_cases heq : a.number = b.number
  · have hsame : a = b := eq_iff_number.2 heq
    exact hsame ▸ Int.le_refl _
  · have hlt : a < b := Int.lt_iff_le_and_ne.2 ⟨h, heq⟩
    rcases lt_iff_civil.1 hlt with hyear | ⟨hyear, _⟩ <;> omega

/-- Texts compare as days also if the earlier one has a year before 0. -/
theorem text_le_iff {a b : Day} (ha : a.civil.year ≤ 9999) (hb : b.HasPlainYear) :
    a.text ≤ b.text ↔ a ≤ b := by
  have hle : a ≤ b ↔ ¬ b < a := Int.not_lt.symm
  rw [← String.not_lt, hle]
  refine not_congr ?_
  by_cases hplain : a.HasPlainYear
  · exact text_lt_iff hb hplain
  · have htext := String.lt_asymm (text_lt_of_not_plain hplain hb)
    have hday : ¬ b < a := by
      intro hlt
      have hyear := year_le_of_le (Int.le_of_lt hlt)
      have := hb.1
      exact hplain ⟨by omega, ha⟩
    exact iff_of_false htext hday

end Day

end Order

end PeerWatch.Calendar
