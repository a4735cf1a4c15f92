import PeerWatch.Proofs.IdentityTexts

/-!
# Reading identities

A text tells an identity if it consists of 64 hexadecimal digits of either case, white
space at its two ends aside, and then it is the text of that identity but for the case.
Any other text has one fault: an odd number of bytes, or else a first byte that is no
digit, or else a wrong number of digits.  A character outside ASCII is of several bytes,
none of which is a digit, so the bytes may be counted and looked at in place of the
characters.

The digits stand in the order of what they stand for.  So identities, their bytes and
their texts are in one order, wherever they are sorted.

* `Text.IsCore`, `Text.isCore_trim` — a text without the white space at its ends;
* `Hex.utf8_of_digits`, `Hex.forall_utf8_iff` — digits as characters and as bytes;
* `Hex.Spells`, `Hex.spells_decodePairs` — what comes of reading digits two by two;
* `Hex.compare_encode`, `TargetId.compare_text` — the order of texts;
* `TargetId.texts_are_exact`.
-/

namespace PeerWatch

namespace Text

/-- What is left of a text without the white space at its two ends. -/
structure IsCore (text core : List Char) : Prop where
  split : ∃ before after, text = before ++ core ++ after ∧ ∀ c ∈ before ++ after, isBlank c
  first : ∀ c ∈ core.head?, isBlank c = false
  last : ∀ c ∈ core.getLast?, isBlank c = false

/-- The first of the characters that are left is not blank. -/
theorem not_isBlank_of_head?_dropWhile {text : List Char} {c : Char}
    (h : c ∈ (text.dropWhile isBlank).head?) : isBlank c = false := by
  have hhead := List.head?_dropWhile_not isBlank text
  rw [Option.mem_def.1 h] at hhead
  simpa using hhead

/-- What is left of a trimmed text is its core. -/
theorem isCore_trim (text : List Char) : IsCore text (trim text) := by
  -- the white space after the core is what is dropped from the rest, read backwards
  let rest := text.dropWhile isBlank
  let tail := rest.reverse.takeWhile isBlank
  have hrest : rest = trim text ++ tail.reverse := by
    have hreverse : tail ++ (trim text).reverse = rest.reverse := by
      rw [trim, List.reverse_reverse]
      exact List.takeWhile_append_dropWhile
    rw [← List.reverse_inj, List.reverse_append, List.reverse_reverse, hreverse]
  refine ⟨⟨text.takeWhile isBlank, tail.reverse, ?_, ?_⟩, ?_, ?_⟩
  · rw [List.append_assoc, ← hrest]
    exact List.takeWhile_append_dropWhile.symm
  · intro c hc
    rcases List.mem_append.1 hc with hc | hc
    · exact List.all_eq_true.1 List.all_takeWhile c hc
    · exact List.all_eq_true.1 List.all_takeWhile c (List.mem_reverse.1 hc)
  · intro c hc
    have hhead : c ∈ rest.head? := by
      rw [hrest, List.head?_append, Option.mem_def.1 hc]
      rfl
    exact not_isBlank_of_head?_dropWhile hhead
  · intro c hc
    rw [trim, List.getLast?_reverse] at hc
    exact not_isBlank_of_head?_dropWhile hc

/-- A text without white space is left as it is. -/
theorem trim_of_not_isBlank {text : List Char} (h : ∀ c ∈ text, isBlank c = false) :
    trim text = text := by
  obtain ⟨⟨before, after, htext, hblank⟩, _, _⟩ := isCore_trim text
  have hnil : ∀ c, c ∉ before ++ after := by
    intro c hc
    have hmem : c ∈ text := by
      rw [htext]
      rcases List.mem_append.1 hc with hc | hc
      · exact List.mem_append_left _ (List.mem_append_left _ hc)
      · exact List.mem_append_right _ hc
    exact Bool.false_ne_true ((h c hmem).symm.trans (hblank c hc))
  obtain ⟨rfl, rfl⟩ := List.append_eq_nil_iff.1 (List.eq_nil_iff_forall_not_mem.2 hnil)
  rw [List.nil_append, List.append_nil] at htext
  exact htext.symm

/-- Lists of characters stand in the order of the first characters in which they differ. -/
theorem compare_chars (xs ys : List Char) : compareOfLessAndEq xs ys = compare xs ys := by
  induction xs generalizing ys with
  | nil => cases ys <;> simp [compareOfLessAndEq]
  | cons x xs ih =>
      cases ys with
      | nil => simp [compareOfLessAndEq]
      | cons y ys =>
          rw [List.compare_cons_cons, ← ih]
          simp only [compare, compareOfLessAndEq, List.cons_lt_cons_iff, List.cons.injEq]
          by_cases hlt : x < y
          · simp [hlt]
          · by_cases heq : x = y <;> simp [hlt, heq]

/-- Texts are compared by their characters. -/
theorem compare_string (a b : String) : compare a b = compare a.toList b.toList := by
  rw [← compare_chars]
  show compareOfLessAndEq a b = compareOfLessAndEq a.toList b.toList
  simp only [compareOfLessAndEq, String.toList_inj]
  rfl

end Text

namespace Hex

section Digits

/-- A digit of either case. -/
def isDigit (c : Char) : Bool :=
  ('0' ≤ c && c ≤ '9') || ('a' ≤ c && c ≤ 'f') || ('A' ≤ c && c ≤ 'F')

/-- A byte that is a digit. -/
def isDigitByte (b : UInt8) : Bool := isDigit (Char.ofNat b.toNat)

/-- What can be checked byte by byte. -/
theorem forall_byte {p : UInt8 → Prop} (h : ∀ n : Fin 256, p (UInt8.ofNat n)) (b : UInt8) :
    p b := by
  have hb := h ⟨b.toNat, b.toNat_lt⟩
  rwa [show UInt8.ofNat ((⟨b.toNat, b.toNat_lt⟩ : Fin 256) : Nat) = b from UInt8.ofNat_toNat] at hb

/-- A digit stands for the half byte that it is the digit of, but for the case. -/
theorem map_digit_value? (b : UInt8) : (value? b).map (fun v => digit v.toNat) =
    if isDigitByte b then some (Char.ofNat b.toNat).toLower else none := by
  revert b
  exact forall_byte (by decide +kernel)

/-- The value of a digit is less than 16. -/
theorem lt_of_mem_value? {b v : UInt8} (h : v ∈ value? b) : v.toNat < 16 := by
  have hall : ∀ b : UInt8, ∀ v ∈ value? b, v.toNat < 16 := forall_byte (by decide +kernel)
  exact hall b v h

/-- What is written for a value is a digit, in lower case. -/
theorem isDigit_digit {n : Nat} (h : n < 16) : isDigit (digit n) ∧ (digit n).toLower = digit n := by
  have hall : ∀ n : Fin 16, isDigit (digit n) ∧ (digit n).toLower = digit n := by decide
  exact hall ⟨n, h⟩

/-- Digits are among the ASCII characters from 0 to f. -/
theorem toNat_lt_of_isDigit {c : Char} (h : isDigit c) : 48 ≤ c.toNat ∧ c.toNat < 103 := by
  simp only [isDigit, Bool.or_eq_true, Bool.and_eq_true, decide_eq_true_eq, Char.le_def,
    UInt32.le_iff_toNat_le] at h
  simp only [Char.toNat]
  rcases h with (⟨hlow, hhigh⟩ | ⟨hlow, hhigh⟩) | ⟨hlow, hhigh⟩ <;>
    exact ⟨Nat.le_trans (by decide) hlow, Nat.lt_of_le_of_lt hhigh (by decide)⟩

/-- No digit is white space. -/
theorem not_isBlank_of_isDigit {c : Char} (h : isDigit c) : Text.isBlank c = false := by
  obtain ⟨hlow, hhigh⟩ := toNat_lt_of_isDigit h
  simp only [Text.isBlank, Bool.or_eq_false_iff, Bool.and_eq_false_iff, decide_eq_false_iff_not]
  omega

end Digits

section Bytes

open TargetId (utf8)

theorem utf8_cons (c : Char) (text : List Char) :
    utf8 (c :: text) = String.utf8EncodeChar c ++ utf8 text := by
  simp [utf8, String.toByteArray_ofList, List.utf8Encode]

/-- An ASCII character is one byte. -/
theorem utf8EncodeChar_of_lt {c : Char} (h : c.toNat < 128) :
    String.utf8EncodeChar c = [UInt8.ofNat c.toNat] := if_pos (Nat.le_of_lt_succ h)

/-- The bytes that make up a character outside ASCII have a mark above what they carry. -/
theorem le_marked {m mark : Nat} (hm : 0 < m) (hmark : 128 ≤ mark) (hfits : m + mark ≤ 256)
    (n : Nat) : 128 ≤ (UInt8.ofNat (n % m + mark)).toNat := by
  have hlt := Nat.mod_lt n hm
  rw [UInt8.toNat_ofNat', Nat.mod_eq_of_lt (by omega)]
  omega

/-- No byte of any other character is that of an ASCII character. -/
theorem le_of_mem_utf8EncodeChar {c : Char} (h : 128 ≤ c.toNat) :
    ∀ b ∈ String.utf8EncodeChar c, 128 ≤ b.toNat := by
  have hle : ¬ c.val.toNat ≤ 127 := Nat.not_le_of_lt h
  have htail : ∀ n : Nat, 128 ≤ (UInt8.ofNat (n % 64 + 128)).toNat :=
    le_marked (by decide) (by decide) (by decide)
  unfold String.utf8EncodeChar
  simp only [if_neg hle]
  -- two, three or four bytes: the first with a mark of its own, the others with the one mark
  repeat' split
  all_goals
    simp only [List.forall_mem_cons, htail, List.not_mem_nil, false_implies, implies_true, and_true]
    exact le_marked (by decide) (by decide) (by decide) _

/-- The bytes of a digit are the digit, and the bytes of no other character are all digits. -/
theorem forall_utf8EncodeChar_iff (c : Char) :
    (∀ b ∈ String.utf8EncodeChar c, isDigitByte b) ↔ isDigit c := by
  by_cases hc : c.toNat < 128
  · rw [utf8EncodeChar_of_lt hc, List.forall_mem_singleton, isDigitByte, UInt8.toNat_ofNat',
      Nat.mod_eq_of_lt (Nat.lt_trans hc (by decide)), Char.ofNat_toNat]
  · constructor
    · intro hall
      obtain ⟨b, hb⟩ := List.exists_mem_of_ne_nil _ (String.utf8EncodeChar_ne_nil (c := c))
      have hle := le_of_mem_utf8EncodeChar (Nat.le_of_not_lt hc) b hb
      have hlt := (toNat_lt_of_isDigit (hall b hb)).2
      have hvalid : b.toNat.isValidChar := .inl (Nat.lt_trans b.toNat_lt (by decide))
      have hcode : (Char.ofNat b.toNat).toNat = b.toNat := by
        rw [Char.ofNat, dif_pos hvalid]
        rfl
      omega
    · intro hdigit
      have hlt := (toNat_lt_of_isDigit hdigit).2
      omega

/-- A text is of digits if its bytes are. -/
theorem forall_utf8_iff (text : List Char) :
    (∀ b ∈ utf8 text, isDigitByte b) ↔ ∀ c ∈ text, isDigit c := by
  induction text with
  | nil => simp [utf8]
  | cons c rest ih =>
      rw [utf8_cons, List.forall_mem_append, List.forall_mem_cons, forall_utf8EncodeChar_iff, ih]

/-- A text in lower case, from its bytes. -/
def lowered (text : List UInt8) : List Char := text.map fun b => (Char.ofNat b.toNat).toLower

/-- A text of digits has a byte for each of them. -/
theorem utf8_of_digits {text : List Char} (h : ∀ c ∈ text, isDigit c) :
    (utf8 text).length = text.length ∧ lowered (utf8 text) = text.map Char.toLower := by
  induction text with
  | nil => exact ⟨rfl, rfl⟩
  | cons c rest ih =>
      obtain ⟨hc, hrest⟩ := List.forall_mem_cons.1 h
      obtain ⟨hlength, hlowered⟩ := ih hrest
      have hlt : c.toNat < 128 := Nat.lt_trans (toNat_lt_of_isDigit hc).2 (by decide)
      rw [utf8_cons, utf8EncodeChar_of_lt hlt]
      refine ⟨congrArg (· + 1) hlength, ?_⟩
      have hbyte : Char.ofNat (UInt8.ofNat c.toNat).toNat = c := by
        rw [UInt8.toNat_ofNat', Nat.mod_eq_of_lt (Nat.lt_trans hlt (by decide)), Char.ofNat_toNat]
      show (Char.ofNat (UInt8.ofNat c.toNat).toNat).toLower :: lowered (utf8 rest) = _
      rw [hbyte, hlowered]
      rfl

end Bytes

section Reading

/-- Of the bytes of a text the one at a position is the first that is no digit. -/
def IsFirstBad (text : List UInt8) (b : UInt8) (position : Nat) : Prop :=
  text[position]? = some b ∧ isDigitByte b = false ∧ ∀ x ∈ text.take position, isDigitByte x

/-- Two digits in front move the first bad byte by two. -/
theorem IsFirstBad.cons_cons {text : List UInt8} {b hi lo : UInt8} {n : Nat}
    (h : IsFirstBad text b n) (hhi : isDigitByte hi) (hlo : isDigitByte lo) :
    IsFirstBad (hi :: lo :: text) b (n + 2) :=
  ⟨h.1, h.2.1, List.forall_mem_cons.2 ⟨hhi, List.forall_mem_cons.2 ⟨hlo, h.2.2⟩⟩⟩

/-- If a byte of a text is bad, not all of them are digits. -/
theorem IsFirstBad.not_forall {text : List UInt8} {b : UInt8} {n : Nat} (h : IsFirstBad text b n) :
    ¬ ∀ x ∈ text, isDigitByte x := by
  intro hall
  have hdigit := hall b (List.mem_of_getElem? h.1)
  rw [h.2.1] at hdigit
  cases hdigit

/-- There is one first bad byte at most. -/
theorem IsFirstBad.unique {text : List UInt8} {b b' : UInt8} {n n' : Nat} (h : IsFirstBad text b n)
    (h' : IsFirstBad text b' n') : b = b' ∧ n = n' := by
  have hle : ∀ {b b' : UInt8} {n n' : Nat}, IsFirstBad text b n → IsFirstBad text b' n' →
      n ≤ n' := by
    intro b b' n n' h h'
    by_contra hlt
    have hmem : b' ∈ text.take n :=
      List.mem_of_getElem? ((List.getElem?_take_of_lt (Nat.lt_of_not_le hlt)).trans h'.1)
    have hdigit := h.2.2 b' hmem
    rw [h'.2.1] at hdigit
    cases hdigit
  obtain rfl := Nat.le_antisymm (hle h h') (hle h' h)
  exact ⟨Option.some.inj (h.1.symm.trans h'.1), rfl⟩

/-- What is made of the bytes of a text, the first of which stands at a position. -/
def Spells (position : Nat) (text : List UInt8) : Except Fault (List UInt8) → Prop
  | .ok bytes => (∀ b ∈ text, isDigitByte b) ∧ encode bytes = lowered text
  | .error .oddLength => text.length % 2 = 1
  | .error (.badDigit b n) => ∃ i, n = position + i ∧ IsFirstBad text b i

/-- A byte that is a digit stands for a half byte. -/
theorem value?_eq_some {b v : UInt8} (h : value? b = some v) :
    isDigitByte b ∧ v.toNat < 16 ∧ digit v.toNat = (Char.ofNat b.toNat).toLower := by
  have hdigit := map_digit_value? b
  rw [h] at hdigit
  split at hdigit
  · next hb => exact ⟨hb, lt_of_mem_value? h, Option.some.inj hdigit⟩
  · cases hdigit

/-- What has no value is no digit. -/
theorem value?_eq_none {b : UInt8} (h : value? b = none) : isDigitByte b = false := by
  have hdigit := map_digit_value? b
  rw [h] at hdigit
  split at hdigit
  · cases hdigit
  · next hb => exact Bool.eq_false_iff.2 hb

/-- Two half bytes make a byte, of which they are the digits. -/
theorem encode_join {h l : UInt8} (hh : h.toNat < 16) (hl : l.toNat < 16) (rest : List UInt8) :
    encode ((h * 16 + l) :: rest) = digit h.toNat :: digit l.toNat :: encode rest := by
  have hbyte : (h * 16 + l).toNat = h.toNat * 16 + l.toNat := by
    rw [UInt8.toNat_add, UInt8.toNat_mul]
    show (h.toNat * 16 % 256 + l.toNat) % 256 = _
    omega
  rw [encode_cons, hbyte]
  congr 2 <;> congr 1 <;> omega

/-- **Digits read two by two** give their bytes, or the first fault there is. -/
theorem spells_decodePairs (position : Nat) (text : List UInt8) :
    Spells position text (decodePairs position text) := by
  fun_induction decodePairs position text with
  | case1 position => exact ⟨fun b hb => (List.not_mem_nil hb).elim, rfl⟩
  | case2 position b => exact rfl
  | case3 position hi lo rest hhi =>
      exact ⟨0, rfl, rfl, value?_eq_none hhi, fun x hx => (List.not_mem_nil hx).elim⟩
  | case4 position hi lo rest h hlo hhi =>
      exact ⟨1, rfl, rfl, value?_eq_none hlo, List.forall_mem_singleton.2 (value?_eq_some hhi).1⟩
  | case5 position hi lo rest h l hlo hhi fault hfault ih =>
      rw [hfault] at ih
      cases fault with
      | oddLength =>
          have hodd : rest.length % 2 = 1 := ih
          show (rest.length + 2) % 2 = 1
          omega
      | badDigit b n =>
          obtain ⟨i, rfl, hbad⟩ := ih
          exact ⟨i + 2, by omega, hbad.cons_cons (value?_eq_some hhi).1 (value?_eq_some hlo).1⟩
  | case6 position hi lo rest h l hlo hhi bytes hbytes ih =>
      rw [hbytes] at ih
      obtain ⟨hall, hencode⟩ := ih
      obtain ⟨hhi, hh, hhigh⟩ := value?_eq_some hhi
      obtain ⟨hlo, hl, hlow⟩ := value?_eq_some hlo
      refine ⟨List.forall_mem_cons.2 ⟨hhi, List.forall_mem_cons.2 ⟨hlo, hall⟩⟩, ?_⟩
      rw [encode_join hh hl, hencode, hhigh, hlow]
      rfl

variable {text : List UInt8}

theorem length_lowered (text : List UInt8) : (lowered text).length = text.length :=
  List.length_map _

/-- An odd number of bytes is complained of before anything else. -/
theorem decode_eq_oddLength_iff : decode text = .error .oddLength ↔ text.length % 2 = 1 := by
  have hspells := spells_decodePairs 0 text
  unfold decode
  constructor
  · intro h
    split at h
    · next hodd => exact hodd
    · rw [h] at hspells
      exact hspells
  · intro hodd
    rw [if_pos hodd]

/-- What a text of an even number of bytes spells. -/
theorem decode_of_even (h : text.length % 2 = 0) : decode text = decodePairs 0 text :=
  if_neg (by omega)

/-- An even number of digits can be read. -/
theorem exists_decode (heven : text.length % 2 = 0) (h : ∀ b ∈ text, isDigitByte b) :
    ∃ bytes, decode text = .ok bytes := by
  have hspells := spells_decodePairs 0 text
  rw [decode_of_even heven]
  revert hspells
  cases decodePairs 0 text with
  | ok bytes => exact fun _ => ⟨bytes, rfl⟩
  | error fault =>
      cases fault with
      | oddLength =>
          intro hodd
          have hodd : text.length % 2 = 1 := hodd
          omega
      | badDigit b n =>
          rintro ⟨i, _, hbad⟩
          exact absurd h hbad.not_forall

/-- A text reads exactly if it is digits, an even number of them; what is read is written as
the same text in lower case. -/
theorem decode_eq_ok_iff {bytes : List UInt8} : decode text = .ok bytes ↔
    text.length % 2 = 0 ∧ (∀ b ∈ text, isDigitByte b) ∧ encode bytes = lowered text := by
  have hspells := spells_decodePairs 0 text
  constructor
  · intro h
    rcases Nat.mod_two_eq_zero_or_one text.length with heven | hodd
    · rw [← decode_of_even heven, h] at hspells
      exact ⟨heven, hspells⟩
    · rw [decode_eq_oddLength_iff.2 hodd] at h
      cases h
  · rintro ⟨heven, hall, hencode⟩
    obtain ⟨bytes', hread⟩ := exists_decode heven hall
    rw [← decode_of_even heven, hread] at hspells
    rw [hread, encode_injective (hspells.2.trans hencode.symm)]

/-- Two digits are read to a byte. -/
theorem length_of_decode {bytes : List UInt8} (h : decode text = .ok bytes) :
    text.length = 2 * bytes.length := by
  obtain ⟨_, _, hencode⟩ := decode_eq_ok_iff.1 h
  rw [← length_lowered, ← hencode, encode_length]

/-- The byte that is complained of is the first one that is no digit. -/
theorem decode_eq_badDigit_iff {b : UInt8} {n : Nat} :
    decode text = .error (.badDigit b n) ↔ text.length % 2 = 0 ∧ IsFirstBad text b n := by
  have hspells := spells_decodePairs 0 text
  rcases Nat.mod_two_eq_zero_or_one text.length with heven | hodd
  · rw [decode_of_even heven]
    constructor
    · intro h
      rw [h] at hspells
      obtain ⟨i, hi, hbad⟩ := hspells
      rw [Nat.zero_add] at hi
      exact ⟨heven, hi ▸ hbad⟩
    · rintro ⟨_, hbad⟩
      revert hspells
      cases hread : decodePairs 0 text with
      | ok bytes => exact fun hspells => absurd hspells.1 hbad.not_forall
      | error fault =>
          cases fault with
          | oddLength =>
              intro hodd
              have hodd : text.length % 2 = 1 := hodd
              omega
          | badDigit b' n' =>
              rintro ⟨i, rfl, hbad'⟩
              obtain ⟨rfl, rfl⟩ := hbad'.unique hbad
              rw [Nat.zero_add]
  · rw [decode_eq_oddLength_iff.2 hodd]
    constructor
    · intro h
      cases h
    · rintro ⟨heven, _⟩
      omega

end Reading

section Order

/-- Digits are ordered as their values are. -/
theorem compare_digit {m n : Nat} (hm : m < 16) (hn : n < 16) :
    compare (digit m) (digit n) = compare m n := by
  have hall : ∀ m n : Fin 16, compare (digit m) (digit n) = compare m.val n.val := by decide
  exact hall ⟨m, hm⟩ ⟨n, hn⟩

/-- Numbers stand in the order of their high parts, and if these are the same in that of
their low parts. -/
theorem compare_halves (m n : Nat) :
    (compare (m / 16) (n / 16)).then (compare (m % 16) (n % 16)) = compare m n := by
  cases hhigh : compare (m / 16) (n / 16) with
  | lt =>
      have hlt := Nat.compare_eq_lt.1 hhigh
      exact (Nat.compare_eq_lt.2 (by omega)).symm
  | gt =>
      have hgt := Nat.compare_eq_gt.1 hhigh
      exact (Nat.compare_eq_gt.2 (by omega)).symm
  | eq =>
      have heq := Nat.compare_eq_eq.1 hhigh
      rw [Ordering.eq_then]
      cases hlow : compare (m % 16) (n % 16) with
      | lt =>
          have hlt := Nat.compare_eq_lt.1 hlow
          exact (Nat.compare_eq_lt.2 (by omega)).symm
      | gt =>
          have hgt := Nat.compare_eq_gt.1 hlow
          exact (Nat.compare_eq_gt.2 (by omega)).symm
      | eq =>
          have heq := Nat.compare_eq_eq.1 hlow
          exact (Nat.compare_eq_eq.2 (by omega)).symm

/-- Bytes are ordered as numbers. -/
theorem compare_byte (x y : UInt8) : compare x y = compare x.toNat y.toNat := by
  simp only [compare, compareOfLessAndEq, UInt8.lt_iff_toNat_lt, UInt8.toNat_inj]

/-- **Texts stand in the order of the bytes** that they tell. -/
theorem compare_encode (xs ys : List UInt8) : compare (encode xs) (encode ys) = compare xs ys := by
  induction xs generalizing ys with
  | nil => cases ys <;> rfl
  | cons x xs ih =>
      cases ys with
      | nil => rfl
      | cons y ys =>
          have hx : x.toNat < 256 := x.toNat_lt
          have hy : y.toNat < 256 := y.toNat_lt
          rw [encode_cons, encode_cons, List.compare_cons_cons, List.compare_cons_cons,
            List.compare_cons_cons, compare_digit (by omega) (by omega),
            compare_digit (by omega) (by omega), ih, ← Ordering.then_assoc, compare_halves,
            compare_byte]

end Order

end Hex

namespace TargetId

/-- Identities stand in the order of their texts. -/
theorem compare_text (a b : TargetId) : compare a b = compare a.text b.text := by
  rw [Text.compare_string, text, text, String.toList_ofList, String.toList_ofList,
    Hex.compare_encode]
  rfl

section Reading

variable {text : String}

/-- What is read of a text is what its digits spell. -/
theorem parse_eq_ok_iff {id : TargetId} :
    parse text = .ok id ↔ Hex.decode (utf8 (Text.trim text.toList)) = .ok id.bytes := by
  unfold parse
  constructor
  · intro h
    split at h
    · cases h
    · next bytes hbytes =>
        split at h
        · obtain rfl := Except.ok.inj h
          exact hbytes
        · cases h
  · intro h
    rw [h]
    exact dif_pos id.length_eq

/-- An identity fails for its digits exactly where the text between white space does. -/
theorem parse_eq_hex_iff {fault : Hex.Fault} : parse text = .error (.hex fault) ↔
    Hex.decode (utf8 (Text.trim text.toList)) = .error fault := by
  unfold parse
  constructor
  · intro h
    split at h
    · next fault' hfault =>
        obtain rfl : fault' = fault := by simpa using h
        exact hfault
    · split at h <;> simp at h
  · intro h
    rw [h]

/-- An identity fails for its length exactly where the bytes read are not 32. -/
theorem parse_eq_length_iff {n : Nat} : parse text = .error (.length n) ↔
    ∃ bytes, Hex.decode (utf8 (Text.trim text.toList)) = .ok bytes ∧ bytes.length = n ∧ n ≠ 32 := by
  unfold parse
  constructor
  · intro h
    split at h
    · simp at h
    · next bytes hbytes =>
        split at h
        · cases h
        · next hlength =>
            obtain rfl : bytes.length = n := by simpa using h
            exact ⟨bytes, hbytes, rfl, hlength⟩
  · rintro ⟨bytes, hbytes, rfl, hlength⟩
    rw [hbytes]
    exact dif_neg hlength

end Reading

section Texts

/-- The text of an identity is of 64 digits in lower case. -/
theorem forall_mem_encode (bytes : List UInt8) :
    ∀ c ∈ Hex.encode bytes, Hex.isDigit c ∧ c.toLower = c := by
  induction bytes with
  | nil => exact fun c hc => (List.not_mem_nil hc).elim
  | cons b rest ih =>
      have hb : b.toNat < 256 := b.toNat_lt
      rw [Hex.encode_cons]
      exact List.forall_mem_cons.2 ⟨Hex.isDigit_digit (by omega),
        List.forall_mem_cons.2 ⟨Hex.isDigit_digit (by omega), ih⟩⟩

/-- The text of an identity tells it. -/
theorem parse_text (id : TargetId) : parse id.text = .ok id := by
  have hdigits : ∀ c ∈ Hex.encode id.bytes, Hex.isDigit c := fun c hc =>
    (forall_mem_encode id.bytes c hc).1
  have hlower : (Hex.encode id.bytes).map Char.toLower = Hex.encode id.bytes :=
    (List.map_congr_left fun c hc => (forall_mem_encode id.bytes c hc).2).trans (List.map_id _)
  obtain ⟨hlength, hlowered⟩ := Hex.utf8_of_digits hdigits
  rw [parse_eq_ok_iff, text, String.toList_ofList,
    Text.trim_of_not_isBlank fun c hc => Hex.not_isBlank_of_isDigit (hdigits c hc),
    Hex.decode_eq_ok_iff, hlength, Hex.encode_length, hlowered, hlower]
  exact ⟨Nat.mul_mod_right 2 _, (Hex.forall_utf8_iff _).2 hdigits, rfl⟩

end Texts

/-- **Identities and their texts are one to one, and in one order.**  Of any text let the
core be what is left without the white space at its ends.  The text tells an identity just
if the core is of 64 hexadecimal digits of either case, and it is the text of this identity
then, but for the case.  If it tells none, the fault is an odd number of bytes in the core;
or, if their number is even, the first byte that is no digit, with its position; or, if all
of them are digits, half their number.  The text of an identity tells it.  And identities
stand in the order of their texts, and in that of their bytes. -/
theorem texts_are_exact :
    (∀ text : String, ∃ core, Text.IsCore text.toList core ∧
      ((∃ id, parse text = .ok id) ↔ core.length = 64 ∧ ∀ c ∈ core, Hex.isDigit c) ∧
      (∀ id, parse text = .ok id → id.text = String.ofList (core.map Char.toLower)) ∧
      (parse text = .error (.hex .oddLength) ↔ (utf8 core).length % 2 = 1) ∧
      (∀ b n, parse text = .error (.hex (.badDigit b n)) ↔
        (utf8 core).length % 2 = 0 ∧ Hex.IsFirstBad (utf8 core) b n) ∧
      (∀ n, parse text = .error (.length n) ↔
        (utf8 core).length % 2 = 0 ∧ (∀ b ∈ utf8 core, Hex.isDigitByte b) ∧
          n = (utf8 core).length / 2 ∧ n ≠ 32)) ∧
    (∀ id : TargetId, parse id.text = .ok id) ∧
    (∀ a b : TargetId,
      compare a b = compare a.text b.text ∧ compare a b = compare a.bytes b.bytes) := by
  refine ⟨fun text => ⟨Text.trim text.toList, Text.isCore_trim _, ?_, ?_, ?_, ?_, ?_⟩, parse_text,
    fun a b => ⟨compare_text a b, rfl⟩⟩
  · constructor
    · rintro ⟨id, hid⟩
      have hdecode := parse_eq_ok_iff.1 hid
      have hdigits := (Hex.forall_utf8_iff _).1 (Hex.decode_eq_ok_iff.1 hdecode).2.1
      refine ⟨?_, hdigits⟩
      rw [← (Hex.utf8_of_digits hdigits).1, Hex.length_of_decode hdecode, id.length_eq]
    · rintro ⟨hlength, hdigits⟩
      have hbytes := (Hex.utf8_of_digits hdigits).1.trans hlength
      obtain ⟨bytes, hdecode⟩ :=
        Hex.exists_decode (by rw [hbytes]) ((Hex.forall_utf8_iff _).2 hdigits)
      have hcount := Hex.length_of_decode hdecode
      exact ⟨⟨bytes, by omega⟩, parse_eq_ok_iff.2 hdecode⟩
  · intro id hid
    obtain ⟨_, hdigits, hencode⟩ := Hex.decode_eq_ok_iff.1 (parse_eq_ok_iff.1 hid)
    have hlowered := (Hex.utf8_of_digits ((Hex.forall_utf8_iff _).1 hdigits)).2
    rw [TargetId.text, hencode, hlowered]
  · exact parse_eq_hex_iff.trans Hex.decode_eq_oddLength_iff
  · exact fun b n => parse_eq_hex_iff.trans Hex.decode_eq_badDigit_iff
  · intro n
    rw [parse_eq_length_iff]
    constructor
    · rintro ⟨bytes, hdecode, rfl, hn⟩
      obtain ⟨heven, hdigits, _⟩ := Hex.decode_eq_ok_iff.1 hdecode
      have hcount := Hex.length_of_decode hdecode
      exact ⟨heven, hdigits, by omega, hn⟩
    · rintro ⟨heven, hdigits, hcount, hn⟩
      obtain ⟨bytes, hdecode⟩ := Hex.exists_decode heven hdigits
      have hlength := Hex.length_of_decode hdecode
      exact ⟨bytes, hdecode, by omega, hn⟩

/-- White space within a text is no digit, and a character of two bytes is none at its
first byte. -/
example : parse " a b1 " = .error (.hex (.badDigit 32 1)) ∧
    parse "ab\u00e9" = .error (.hex (.badDigit 195 2)) := by decide

end TargetId

end PeerWatch
