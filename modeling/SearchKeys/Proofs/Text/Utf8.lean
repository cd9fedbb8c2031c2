/-
# Reading back an encoded text

Every text has an encoding as bytes, and reading these bytes gives the text. Nothing else can be
read: the bytes of a character that was read are the shortest ones for its number. So the byte
strings that can be read are exactly the encodings, and a statement about all readable keys
may speak about texts instead.

## Main results

* `Text.decodeFrom_encode_append`: the reader passes over an encoded text, whatever follows it.
* `Text.decode_encode`: an encoded text is read back.
* `Text.decode_eq_ok_iff`: the byte strings that can be read are the encodings.
-/

import SearchKeys.Text.Utf8
import Mathlib.Data.List.Basic
import Mathlib.Tactic.SplitIfs

namespace SearchKeys.Text

private theorem toNat_ofNat_of_lt {n : Nat} (small : n < 256) : (UInt8.ofNat n).toNat = n := by
  simp [Nat.mod_eq_of_lt small]

/-- A continuation byte adds its six bits below those already read. -/
private theorem continuations?_cons (count number bits : Nat) (rest : List UInt8)
    (small : bits < 0x40) :
    continuations? (count + 1) number (UInt8.ofNat (bits + 0x80) :: rest) =
      continuations? count (number * 0x40 + bits) rest := by
  rw [continuations?, toNat_ofNat_of_lt (by omega), if_pos (by omega), Nat.add_sub_cancel]

private theorem scalar?_toNat (c : Char) {least : Nat} (large : least ≤ c.toNat) :
    scalar? least c.toNat = some c := by
  have valid : c.toNat.isValidChar := c.valid
  rw [scalar?, if_pos ⟨valid, large⟩, Char.ofNat_toNat]

/-- The bytes of a character are read as this character, whatever follows them. -/
theorem firstChar?_encode (c : Char) (rest : List UInt8) :
    firstChar? (String.utf8EncodeChar c ++ rest) = some (c, rest) := by
  have bound : c.toNat < 0x110000 := by
    have valid := c.valid
    simp only [UInt32.isValidChar, Nat.isValidChar, Char.toNat_val] at valid
    omega
  have read (lead : Lead) (number : Nat) (bytes : List UInt8) (byte : UInt8)
      (first : Lead.ofByte? byte = some lead)
      (following : continuations? lead.following lead.payload bytes = some (number, rest))
      (whole : number = c.toNat) (shortest : lead.least ≤ c.toNat) :
      firstChar? (byte :: bytes) = some (c, rest) := by
    subst whole
    simp [firstChar?, first, following, scalar?_toNat c shortest]
  simp only [String.utf8EncodeChar, Char.toNat_val]
  -- one case for each length of the encoding
  split
  · refine read ⟨0, 0, c.toNat⟩ c.toNat rest _ ?_ rfl rfl (Nat.zero_le _)
    rw [Lead.ofByte?, toNat_ofNat_of_lt (by omega), if_pos (by omega)]
  · split
    · refine read ⟨1, 0x80, c.toNat / 64 % 0x20⟩ _ _ _ ?_
        (continuations?_cons 0 _ (c.toNat % 0x40) rest (Nat.mod_lt _ (by decide)))
        (by dsimp only; omega) (by dsimp only; omega)
      rw [Lead.ofByte?, toNat_ofNat_of_lt (by omega), if_neg (by omega), if_neg (by omega),
        if_pos (by omega), Nat.add_sub_cancel]
    · split
      · refine read ⟨2, 0x800, c.toNat / 4096 % 0x10⟩ _ _ _ ?_
          ((continuations?_cons 1 _ (c.toNat / 64 % 0x40) _ (Nat.mod_lt _ (by decide))).trans
            (continuations?_cons 0 _ (c.toNat % 0x40) rest (Nat.mod_lt _ (by decide))))
          (by dsimp only; omega) (by dsimp only; omega)
        rw [Lead.ofByte?, toNat_ofNat_of_lt (by omega), if_neg (by omega), if_neg (by omega),
          if_neg (by omega), if_pos (by omega), Nat.add_sub_cancel]
      · refine read ⟨3, 0x10000, c.toNat / 262144 % 0x08⟩ _ _ _ ?_
          ((continuations?_cons 2 _ (c.toNat / 4096 % 0x40) _ (Nat.mod_lt _ (by decide))).trans
            ((continuations?_cons 1 _ (c.toNat / 64 % 0x40) _ (Nat.mod_lt _ (by decide))).trans
              (continuations?_cons 0 _ (c.toNat % 0x40) rest (Nat.mod_lt _ (by decide)))))
          (by dsimp only; omega) (by dsimp only; omega)
        rw [Lead.ofByte?, toNat_ofNat_of_lt (by omega), if_neg (by omega), if_neg (by omega),
          if_neg (by omega), if_neg (by omega), if_pos (by omega), Nat.add_sub_cancel]

/-- The reader passes over the bytes of a text, whatever follows them. -/
theorem decodeFrom_encode_append (position : Nat) (done text : List Char) (rest : List UInt8) :
    decodeFrom position done (encode text ++ rest) =
      decodeFrom (position + (encode text).length) (text.reverse ++ done) rest := by
  induction text generalizing position done with
  | nil => rfl
  | cons c text ih =>
    have first := firstChar?_encode c (encode text ++ rest)
    rw [← List.append_assoc, ← encode_cons] at first
    have notEmpty : (encode (c :: text) ++ rest).isEmpty = false := by
      rw [encode_cons]
      cases characters : String.utf8EncodeChar c with
      | nil => exact absurd characters String.utf8EncodeChar_ne_nil
      | cons _ _ => rfl
    rw [decodeFrom, notEmpty]
    simp only [Bool.false_eq_true, if_false]
    split
    · simp_all
    · next char behind read =>
      obtain ⟨rfl, rfl⟩ : c = char ∧ encode text ++ rest = behind := by simpa [first] using read
      rw [ih, encode_cons, List.length_append, String.length_utf8EncodeChar, Nat.add_assoc]
      simp

/-- Reading the bytes of a text gives the text. -/
theorem decode_encode (text : List Char) : decode (encode text) = .ok text := by
  have read := decodeFrom_encode_append 0 [] text []
  rw [List.append_nil, List.append_nil] at read
  rw [decode, read, decodeFrom]
  simp

/-- A continuation byte was read from the six bits that it adds. -/
private theorem exists_of_continuations? {count number value : Nat} {bytes rest : List UInt8}
    (read : continuations? (count + 1) number bytes = some (value, rest)) :
    ∃ bits behind, bits < 0x40 ∧ bytes = UInt8.ofNat (bits + 0x80) :: behind ∧
      continuations? count (number * 0x40 + bits) behind = some (value, rest) := by
  cases bytes with
  | nil => cases read
  | cons byte behind =>
    rw [continuations?] at read
    split at read
    · next continues =>
      refine ⟨byte.toNat - 0x80, behind, by omega, ?_, read⟩
      rw [Nat.sub_add_cancel continues.1, UInt8.ofNat_toNat]
    · cases read

private theorem toNat_of_scalar? {least number : Nat} {c : Char}
    (read : scalar? least number = some c) : c.toNat = number ∧ least ≤ number := by
  rw [scalar?] at read
  split at read
  · next valid =>
    obtain rfl := Option.some.inj read
    refine ⟨?_, valid.2⟩
    rw [Char.ofNat, dif_pos valid.1]
    rfl
  · cases read

/-- A character is read from its own bytes only. -/
theorem encode_of_firstChar? {bytes rest : List UInt8} {c : Char}
    (read : firstChar? bytes = some (c, rest)) : String.utf8EncodeChar c ++ rest = bytes := by
  cases bytes with
  | nil => cases read
  | cons byte bytes =>
    simp only [firstChar?, Option.bind_eq_bind, Option.bind_eq_some_iff, Option.some.injEq,
      Prod.mk.injEq, Prod.exists] at read
    obtain ⟨lead, first, number, tail, following, _, scalar, rfl, rfl⟩ := read
    obtain ⟨number_eq, least⟩ := toNat_of_scalar? scalar
    have small := byte.toNat_lt
    have byte_eq : UInt8.ofNat byte.toNat = byte := UInt8.ofNat_toNat
    rw [Lead.ofByte?] at first
    simp only [String.utf8EncodeChar, Char.toNat_val, number_eq]
    -- one case for each number of continuation bytes
    split_ifs at first with one _ two three four <;> obtain rfl := Option.some.inj first
    · obtain ⟨whole, rfl⟩ := Prod.mk.inj (Option.some.inj following)
      dsimp only at whole
      rw [if_pos (by omega), ← whole, byte_eq, List.singleton_append]
    · obtain ⟨bits, _, low, rfl, last⟩ := exists_of_continuations? following
      obtain ⟨whole, rfl⟩ := Prod.mk.inj (Option.some.inj last)
      dsimp only at whole least
      rw [if_neg (by omega), if_pos (by omega),
        show number / 64 % 32 + 192 = byte.toNat by omega,
        show number % 64 = bits by omega, byte_eq]
      rfl
    · obtain ⟨bits, _, low, rfl, second⟩ := exists_of_continuations? following
      obtain ⟨bits', _, low', rfl, last⟩ := exists_of_continuations? second
      obtain ⟨whole, rfl⟩ := Prod.mk.inj (Option.some.inj last)
      dsimp only at whole least
      rw [if_neg (by omega), if_neg (by omega), if_pos (by omega),
        show number / 4096 % 16 + 224 = byte.toNat by omega,
        show number / 64 % 64 = bits by omega, show number % 64 = bits' by omega, byte_eq]
      rfl
    · obtain ⟨bits, _, low, rfl, second⟩ := exists_of_continuations? following
      obtain ⟨bits', _, low', rfl, third⟩ := exists_of_continuations? second
      obtain ⟨bits'', _, low'', rfl, last⟩ := exists_of_continuations? third
      obtain ⟨whole, rfl⟩ := Prod.mk.inj (Option.some.inj last)
      dsimp only at whole least
      rw [if_neg (by omega), if_neg (by omega), if_neg (by omega),
        show number / 262144 % 8 + 240 = byte.toNat by omega,
        show number / 4096 % 64 = bits by omega, show number / 64 % 64 = bits' by omega,
        show number % 64 = bits'' by omega, byte_eq]
      rfl

private theorem encode_of_decodeFrom {position : Nat} {done text : List Char} {bytes : List UInt8}
    (read : decodeFrom position done bytes = .ok text) :
    encode text = encode done.reverse ++ bytes := by
  fun_induction decodeFrom position done bytes with
  | case1 position done bytes empty =>
    obtain rfl := Except.ok.inj read
    rw [List.isEmpty_iff.1 empty, List.append_nil]
  | case2 => cases read
  | case3 position done bytes _ c rest first _ ih =>
    have single : encode [c] = String.utf8EncodeChar c := List.flatMap_singleton _ _
    rw [ih read, List.reverse_cons, encode_append, List.append_assoc, single,
      encode_of_firstChar? first]

/-- The byte strings that can be read are the encodings. -/
theorem decode_eq_ok_iff {bytes : List UInt8} {text : List Char} :
    decode bytes = .ok text ↔ encode text = bytes := by
  constructor
  · exact encode_of_decodeFrom
  · rintro rfl
    exact decode_encode text

/-- The reader never stops in front of the place where it begins. -/
theorem le_of_decodeFrom_eq_error {position stop : Nat} {done : List Char} {bytes : List UInt8}
    (refused : decodeFrom position done bytes = .error stop) : position ≤ stop := by
  fun_induction decodeFrom position done bytes with
  | case1 => cases refused
  | case2 => exact Nat.le_of_eq (Except.error.inj refused)
  | case3 _ _ _ _ _ _ _ _ ih => exact Nat.le_of_add_right_le (ih refused)

/-- What stands in front of the place where the reader stops is a text. -/
theorem exists_of_decodeFrom_eq_error {position stop : Nat} {done : List Char}
    {bytes : List UInt8} (refused : decodeFrom position done bytes = .error stop) :
    ∃ text rest, bytes = encode text ++ rest ∧ stop = position + (encode text).length := by
  fun_induction decodeFrom position done bytes with
  | case1 => cases refused
  | case2 _ _ bytes => exact ⟨[], bytes, rfl, (Except.error.inj refused).symm⟩
  | case3 position done bytes _ c behind first _ ih =>
    obtain ⟨text, rest, rfl, rfl⟩ := ih refused
    refine ⟨c :: text, rest, ?_, ?_⟩
    · rw [encode_cons, List.append_assoc, encode_of_firstChar? first]
    · rw [encode_cons, List.length_append, String.length_utf8EncodeChar, Nat.add_assoc]

end SearchKeys.Text
