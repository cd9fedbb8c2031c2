/-
# The order of encoded texts

Texts can be ordered by their characters or by the bytes of their encoding. UTF-8 makes no
difference between the two: the first byte of a character tells the length of its encoding, a
longer one has a greater first byte, and within one length the bytes are the digits of the
character's number.

## Main results

* `Text.utf8EncodeChar_append_lt`: the encodings of two characters differ like the characters,
  whatever follows them.
* `Text.encode_lt_encode`: so do the encodings of two texts.
-/

import SearchKeys.Text.Utf8
import Mathlib.Data.List.Lex

namespace SearchKeys.Text

variable {m n : Nat} {rest rest' : List UInt8}

/-- A byte decides the order, unless it is the same on both sides. -/
theorem ofNat_cons_lt (small : n < 256) (le : m ≤ n) (behind : m = n → rest < rest') :
    UInt8.ofNat m :: rest < UInt8.ofNat n :: rest' := by
  rw [List.cons_lt_cons_iff]
  rcases Nat.lt_or_eq_of_le le with less | same
  · left
    have size : UInt8.size = 256 := rfl
    rw [UInt8.lt_iff_toNat_lt, UInt8.toNat_ofNat_of_lt' (by omega), UInt8.toNat_ofNat_of_lt' small]
    exact less
  · exact .inr ⟨by rw [same], behind same⟩

/-- The bytes of a lesser character come before those of a greater one, whatever follows them. -/
theorem utf8EncodeChar_append_lt {c d : Char} (before : c < d) (rest rest' : List UInt8) :
    String.utf8EncodeChar c ++ rest < String.utf8EncodeChar d ++ rest' := by
  have less : c.toNat < d.toNat := before
  have bound : d.toNat < 0x110000 := by
    have valid := d.valid
    simp only [UInt32.isValidChar, Nat.isValidChar, Char.toNat_val] at valid
    omega
  simp only [String.utf8EncodeChar, Char.toNat_val]
  generalize c.toNat = m at less
  generalize d.toNat = n at less bound
  -- one case for each length of the first encoding, and in it one for each of the second; if
  -- they differ in length, then they do so in the first byte
  split
  · split_ifs <;> exact ofNat_cons_lt (by omega) (by omega) fun _ => by omega
  · split
    · split_ifs
      · omega
      · exact ofNat_cons_lt (by omega) (by omega) fun _ =>
          ofNat_cons_lt (by omega) (by omega) fun _ => by omega
      all_goals exact ofNat_cons_lt (by omega) (by omega) fun _ => by omega
    · split
      · split_ifs
        · omega
        · omega
        · exact ofNat_cons_lt (by omega) (by omega) fun _ =>
            ofNat_cons_lt (by omega) (by omega) fun _ =>
              ofNat_cons_lt (by omega) (by omega) fun _ => by omega
        · exact ofNat_cons_lt (by omega) (by omega) fun _ => by omega
      · split_ifs
        · omega
        · omega
        · omega
        · exact ofNat_cons_lt (by omega) (by omega) fun _ =>
            ofNat_cons_lt (by omega) (by omega) fun _ =>
              ofNat_cons_lt (by omega) (by omega) fun _ =>
                ofNat_cons_lt (by omega) (by omega) fun _ => by omega

/-- The order of texts is that of their encodings. -/
theorem encode_lt_encode {first second : List Char} (before : first < second) :
    encode first < encode second := by
  induction (before : List.Lex (· < ·) first second) with
  | @nil c text =>
    rw [encode_cons]
    cases bytes : String.utf8EncodeChar c with
    | nil => exact absurd bytes String.utf8EncodeChar_ne_nil
    | cons byte bytes => exact List.Lex.nil
  | rel less =>
    rw [encode_cons, encode_cons]
    exact utf8EncodeChar_append_lt less _ _
  | @cons c _ _ _ ih =>
    rw [encode_cons, encode_cons]
    exact List.Lex.append_left _ ih _

end SearchKeys.Text
