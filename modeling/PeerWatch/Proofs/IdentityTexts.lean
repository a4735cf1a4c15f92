import Mathlib.Algebra.Ring.Nat
import PeerWatch.Owner

/-!
# Identities and their texts

Two hexadecimal digits tell a byte, so every byte string has a text of its own,
and so has every owner: without its hyphens the text of an owner is the digits
of its bytes.

* `Hex.encode_injective`, `OwnerId.text_injective`.
-/

namespace PeerWatch

namespace Hex

/-- Half bytes have different digits. -/
theorem digit_injective {m n : Nat} (hm : m < 16) (hn : n < 16) (h : digit m = digit n) :
    m = n := by
  have hall : ∀ m n : Fin 16, digit m = digit n → m = n := by decide
  exact congrArg Fin.val (hall ⟨m, hm⟩ ⟨n, hn⟩ h)

/-- No digit is a hyphen. -/
theorem digit_ne_hyphen {n : Nat} (hn : n < 16) : digit n ≠ '-' := by
  have hall : ∀ n : Fin 16, digit n ≠ '-' := by decide
  exact hall ⟨n, hn⟩

theorem encode_cons (b : UInt8) (rest : List UInt8) :
    encode (b :: rest) = digit (b.toNat / 16) :: digit (b.toNat % 16) :: encode rest := rfl

/-- The text of a byte string tells the bytes. -/
theorem encode_injective {xs ys : List UInt8} (h : encode xs = encode ys) : xs = ys := by
  induction xs generalizing ys with
  | nil =>
      cases ys with
      | nil => rfl
      | cons y ys => cases h
  | cons x xs ih =>
      cases ys with
      | nil => cases h
      | cons y ys =>
          rw [encode_cons, encode_cons, List.cons.injEq, List.cons.injEq] at h
          obtain ⟨hhigh, hlow, hrest⟩ := h
          have hx : x.toNat < 256 := x.toNat_lt
          have hy : y.toNat < 256 := y.toNat_lt
          have hhigh := digit_injective (by omega) (by omega) hhigh
          have hlow := digit_injective (by omega) (by omega) hlow
          have hbyte : x = y := UInt8.toNat_inj.1 (by omega)
          rw [hbyte, ih hrest]

/-- There is no hyphen among digits. -/
theorem filter_hyphen_encode (bytes : List UInt8) :
    (encode bytes).filter (· ≠ '-') = encode bytes := by
  induction bytes with
  | nil => rfl
  | cons b rest ih =>
      have hb : b.toNat < 256 := b.toNat_lt
      rw [encode_cons, List.filter_cons_of_pos (by simpa using digit_ne_hyphen (by omega)),
        List.filter_cons_of_pos (by simpa using digit_ne_hyphen (by omega)), ih]

/-- Bytes are encoded one by one. -/
theorem encode_append (xs ys : List UInt8) : encode (xs ++ ys) = encode xs ++ encode ys :=
  List.flatMap_append

end Hex

namespace OwnerId

/-- Pieces written with hyphens between them, read without the hyphens. -/
theorem filter_hyphen_intercalate (pieces : List (List UInt8)) :
    ("-".intercalate (pieces.map fun piece => String.ofList (Hex.encode piece))).toList.filter
      (· ≠ '-') = Hex.encode pieces.flatten := by
  induction pieces with
  | nil => simp [Hex.encode]
  | cons piece rest ih =>
      cases rest with
      | nil =>
          rw [List.map_singleton, String.intercalate_singleton, String.toList_ofList,
            Hex.filter_hyphen_encode, List.flatten_singleton]
      | cons next rest =>
          rw [List.map_cons, String.intercalate_cons_of_ne_nil (by simp), String.toList_append,
            String.toList_append, List.filter_append, List.filter_append, ih, List.flatten_cons,
            Hex.encode_append, String.toList_ofList, Hex.filter_hyphen_encode]
          simp [Hex.encode_append]

/-- Pieces that use up a list make it up. -/
theorem flatten_cut {α : Type} (lengths : List Nat) (xs : List α) (h : xs.length ≤ lengths.sum) :
    (cut lengths xs).flatten = xs := by
  induction lengths generalizing xs with
  | nil => exact (List.eq_nil_of_length_eq_zero (Nat.le_zero.1 h)).symm
  | cons n ns ih =>
      have hrest : (xs.drop n).length ≤ ns.sum := by
        rw [List.sum_cons] at h
        rw [List.length_drop]
        omega
      rw [cut, List.flatten_cons, ih _ hrest, List.take_append_drop]

/-- The text of an owner without its hyphens is the digits of its bytes. -/
theorem filter_hyphen_text (owner : OwnerId) :
    owner.text.toList.filter (· ≠ '-') = Hex.encode owner.bytes := by
  have hcut := flatten_cut groups owner.bytes (Nat.le_of_eq owner.length_eq)
  rw [text, filter_hyphen_intercalate, hcut]

/-- **Different owners have different texts.** -/
theorem text_injective {a b : OwnerId} (h : a.text = b.text) : a = b := by
  have hdigits : Hex.encode a.bytes = Hex.encode b.bytes := by
    rw [← filter_hyphen_text, ← filter_hyphen_text, h]
  exact OwnerId.eq_of_bytes_eq (Hex.encode_injective hdigits)

end OwnerId

end PeerWatch
