/-!
# Words as bytes, least byte first

* `word16`, `word32` — the bytes of one word;
* `ofWords16`, `toWords16?` — a list of 16-bit words and its bytes: reading
  what was written gives the words back, an even number of bytes is read, and
  an odd one is refused.
-/

namespace PeerWatch.LittleEndian

/-- The two bytes of a 16-bit word. -/
def word16 (w : UInt16) : List UInt8 :=
  [UInt8.ofNat w.toNat, UInt8.ofNat (w.toNat / 256)]

/-- The four bytes of a 32-bit word. -/
def word32 (w : UInt32) : List UInt8 :=
  [UInt8.ofNat w.toNat, UInt8.ofNat (w.toNat / 256), UInt8.ofNat (w.toNat / 65536),
   UInt8.ofNat (w.toNat / 16777216)]

def join16 (low high : UInt8) : UInt16 :=
  UInt16.ofNat (low.toNat + 256 * high.toNat)

def join32 (b₀ b₁ b₂ b₃ : UInt8) : UInt32 :=
  UInt32.ofNat (b₀.toNat + 256 * (b₁.toNat + 256 * (b₂.toNat + 256 * b₃.toNat)))

/-- The bytes of a list of words. -/
def ofWords16 (words : List UInt16) : List UInt8 :=
  words.flatMap word16

/-- The words of a list of bytes, if their number is even. -/
def toWords16? : List UInt8 → Option (List UInt16)
  | [] => some []
  | [_] => none
  | low :: high :: rest => (toWords16? rest).map (join16 low high :: ·)

/-- The bytes of a number give the number back. -/
theorem join16_word16 (w : UInt16) :
    join16 (UInt8.ofNat w.toNat) (UInt8.ofNat (w.toNat / 256)) = w := by
  have hw : w.toNat < 65536 := w.toNat_lt
  apply UInt16.toNat_inj.1
  simp only [join16, UInt16.toNat_ofNat', UInt8.toNat_ofNat']
  omega

/-- The number of two bytes gives the bytes back. -/
theorem word16_join16 (low high : UInt8) : word16 (join16 low high) = [low, high] := by
  have hlow : low.toNat < 256 := low.toNat_lt
  have hhigh : high.toNat < 256 := high.toNat_lt
  simp only [word16, join16, UInt16.toNat_ofNat', List.cons.injEq, and_true]
  refine ⟨UInt8.toNat_inj.1 ?_, UInt8.toNat_inj.1 ?_⟩ <;> rw [UInt8.toNat_ofNat'] <;> omega

/-- What numbers are written as reads back. -/
theorem toWords16?_ofWords16 (words : List UInt16) : toWords16? (ofWords16 words) = some words := by
  induction words with
  | nil => rfl
  | cons w rest ih =>
    have : ofWords16 (w :: rest)
        = UInt8.ofNat w.toNat :: UInt8.ofNat (w.toNat / 256) :: ofWords16 rest := rfl
    rw [this, toWords16?, ih, Option.map_some, join16_word16]

/-- Each number takes two bytes. -/
theorem length_ofWords16 (words : List UInt16) : (ofWords16 words).length = 2 * words.length := by
  induction words with
  | nil => rfl
  | cons w rest ih =>
    have : ofWords16 (w :: rest) = word16 w ++ ofWords16 rest := rfl
    rw [this, List.length_append, ih, List.length_cons]
    have : (word16 w).length = 2 := rfl
    omega

/-- Words that were read have the bytes they were read from. -/
theorem ofWords16_of_toWords16? {bytes : List UInt8} {words : List UInt16}
    (h : toWords16? bytes = some words) : ofWords16 words = bytes := by
  induction bytes using toWords16?.induct generalizing words with
  | case1 =>
      obtain rfl := Option.some.inj h
      rfl
  | case2 => cases h
  | case3 low high rest ih =>
      obtain ⟨words, hrest, rfl⟩ := Option.map_eq_some_iff.1 h
      have hbytes := ih hrest
      rw [ofWords16, List.flatMap_cons, word16_join16, ← ofWords16, hbytes]
      rfl

/-- An even number of bytes is read. -/
theorem exists_toWords16? {bytes : List UInt8} {count : Nat} (h : bytes.length = 2 * count) :
    ∃ words, toWords16? bytes = some words := by
  induction count generalizing bytes with
  | zero =>
      obtain rfl := List.length_eq_zero_iff.1 h
      exact ⟨[], rfl⟩
  | succ count ih =>
      match bytes, h with
      | low :: high :: rest, h =>
          have hlength : rest.length = 2 * count := by
            rw [List.length_cons, List.length_cons] at h
            omega
          obtain ⟨words, hrest⟩ := ih hlength
          exact ⟨join16 low high :: words, by rw [toWords16?, hrest, Option.map_some]⟩

end PeerWatch.LittleEndian
