/-
# ASCII characters in an encoding

The byte of an ASCII character stands for this character wherever it occurs in a text that is
encoded in UTF-8: the bytes of all other characters are greater. So where a character such as a
quote is found can be said in bytes or in characters.

## Main results

* `Text.encode_eq_append_cons_iff`: an encoding can be divided at the byte of an ASCII character
  where the text can be divided at the character.
* `Text.getElem?_encode_eq_some_iff`: the byte at a place, if it is one of an ASCII character.
* `Text.count_encode`: how often such a byte occurs.
-/

import SearchKeys.Text.Blank
import SearchKeys.Text.Utf8
import Mathlib.Data.List.Basic
import Mathlib.Tactic.SplitIfs

namespace SearchKeys.Text

/-- The length of an encoding is the length of the text in bytes. -/
theorem length_encode (text : List Char) : (encode text).length = byteLength text := by
  induction text with
  | nil => rfl
  | cons c text ih =>
    rw [encode_cons, List.length_append, String.length_utf8EncodeChar, ih, byteLength_cons]

variable {c : Char} {text : List Char}

theorem utf8EncodeChar_of_ascii (ascii : c.toNat < 0x80) :
    String.utf8EncodeChar c = [UInt8.ofNat c.toNat] := by
  simp only [String.utf8EncodeChar, Char.toNat_val]
  exact if_pos (by omega)

/-- The bytes of other characters are not ASCII. -/
theorem le_toNat_of_mem_utf8EncodeChar (notAscii : 0x80 ≤ c.toNat) :
    ∀ byte ∈ String.utf8EncodeChar c, 0x80 ≤ byte.toNat := by
  simp only [String.utf8EncodeChar, Char.toNat_val]
  rw [if_neg (by omega)]
  split_ifs <;>
    simp only [List.forall_mem_cons, List.not_mem_nil, IsEmpty.forall_iff, implies_true, and_true,
      UInt8.toNat_ofNat'] <;>
    omega

/-- The byte of an ASCII character occurs in no other character. -/
theorem eq_of_mem_utf8EncodeChar {d : Char} (ascii : c.toNat < 0x80)
    (member : UInt8.ofNat c.toNat ∈ String.utf8EncodeChar d) : d = c := by
  have number (n : Nat) (low : n < 0x80) : (UInt8.ofNat n).toNat = n := by
    rw [UInt8.toNat_ofNat']
    omega
  rcases Nat.lt_or_ge d.toNat 0x80 with ascii' | notAscii
  · rw [utf8EncodeChar_of_ascii ascii', List.mem_singleton] at member
    have same := congrArg UInt8.toNat member
    rw [number _ ascii, number _ ascii'] at same
    exact Char.toNat_inj.1 same.symm
  · have high := le_toNat_of_mem_utf8EncodeChar notAscii _ member
    rw [number _ ascii] at high
    omega

/-- Where the byte of an ASCII character stands in an encoding, the character stands in the
text. -/
theorem encode_eq_append_cons_iff {front back : List UInt8} (ascii : c.toNat < 0x80) :
    encode text = front ++ UInt8.ofNat c.toNat :: back ↔
      ∃ before after, text = before ++ c :: after ∧ encode before = front ∧
        encode after = back := by
  constructor
  · intro parts
    induction text generalizing front with
    | nil => simp [encode] at parts
    | cons d text ih =>
      rw [encode_cons] at parts
      have later (more : List UInt8) (front_eq : front = String.utf8EncodeChar d ++ more)
          (behind : encode text = more ++ UInt8.ofNat c.toNat :: back) :
          ∃ before after, d :: text = before ++ c :: after ∧ encode before = front ∧
            encode after = back := by
        obtain ⟨before, after, rfl, rfl, rfl⟩ := ih behind
        exact ⟨d :: before, after, rfl, by rw [front_eq, encode_cons], rfl⟩
      rcases List.append_eq_append_iff.1 parts with
        ⟨more, front_eq, behind⟩ | ⟨_ | ⟨byte, more⟩, bytes, behind⟩
      · exact later more front_eq behind
      · exact later [] (by simpa using bytes.symm) (by simpa using behind.symm)
      · -- the byte is one of the first character, which is therefore the one looked for
        obtain ⟨rfl, rest⟩ := List.cons.inj behind
        obtain rfl : d = c := eq_of_mem_utf8EncodeChar ascii (by simp [bytes])
        rw [utf8EncodeChar_of_ascii ascii] at bytes
        obtain ⟨rfl, rfl⟩ : front = [] ∧ more = [] := by
          have single := congrArg List.length bytes
          simp only [List.length_append, List.length_cons, List.length_nil] at single
          exact ⟨List.length_eq_zero_iff.1 (by omega), List.length_eq_zero_iff.1 (by omega)⟩
        exact ⟨[], text, rfl, rfl, by simpa using rest.symm⟩
  · rintro ⟨before, after, rfl, rfl, rfl⟩
    rw [encode_append, encode_cons, utf8EncodeChar_of_ascii ascii, List.singleton_append]

/-- A byte of an encoding is that of an ASCII character where the character begins. -/
theorem getElem?_encode_eq_some_iff {byte : Nat} (ascii : c.toNat < 0x80) :
    (encode text)[byte]? = some (UInt8.ofNat c.toNat) ↔
      ∃ before after, text = before ++ c :: after ∧ byteLength before = byte := by
  constructor
  · intro found
    obtain ⟨bound, found⟩ := List.getElem?_eq_some_iff.1 found
    have parts := List.take_append_drop byte (encode text)
    rw [List.drop_eq_getElem_cons bound, found] at parts
    obtain ⟨before, after, whole, front, -⟩ := (encode_eq_append_cons_iff ascii).1 parts.symm
    refine ⟨before, after, whole, ?_⟩
    rw [← length_encode, front, List.length_take]
    omega
  · rintro ⟨before, after, rfl, rfl⟩
    rw [encode_append, encode_cons, utf8EncodeChar_of_ascii ascii, ← length_encode]
    simp

/-- An ASCII character occurs as often as its byte. -/
theorem count_encode (ascii : c.toNat < 0x80) :
    (encode text).count (UInt8.ofNat c.toNat) = text.count c := by
  induction text with
  | nil => rfl
  | cons d text ih =>
    rw [encode_cons, List.count_append, ih]
    by_cases same : d = c
    · subst same
      rw [utf8EncodeChar_of_ascii ascii, List.count_singleton_self, List.count_cons_self,
        Nat.add_comm]
    · have notMem := fun member => same (eq_of_mem_utf8EncodeChar ascii member)
      rw [List.count_eq_zero_of_not_mem notMem, List.count_cons_of_ne same, Nat.zero_add]

end SearchKeys.Text
