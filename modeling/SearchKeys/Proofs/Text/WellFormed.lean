/-
# Well-formed UTF-8

Which bytes are UTF-8 is said by a table: each character is a sequence of bytes in one of nine rows,
which give the range of each byte. Overlong forms, surrogates and numbers beyond U+10FFFF have no
row. The reader knows no table. It puts the number of a character together from its bytes and
then looks whether the number may have that many. Both accept the same byte strings, and where
the reader stops, the longest well-formed beginning ends.

## Main definitions

* `Text.sequences`, `Text.IsSequence`: the table, and the bytes of one character by it.
* `Text.WellFormed`: byte strings made of such sequences.

## Main results

* `Text.isSequence_iff`: the sequences of the table are the encodings of the characters.
* `Text.wellFormed_iff`: the well-formed byte strings are the encodings of the texts.
* `Text.decode_eq_error_iff`: a byte string is refused with the length of its longest well-formed
  beginning, and only if it is not well formed as a whole.
-/

import SearchKeys.Proofs.Text.Utf8
import Mathlib.Data.List.Forall2
import Mathlib.Order.Bounds.Basic

namespace SearchKeys.Text

/-! ### The table -/

/-- The sequences of bytes that stand for a character. Each row has the least and the greatest value
of each byte. -/
def sequences : List (List (Nat × Nat)) :=
  [[(0x00, 0x7F)],
   [(0xC2, 0xDF), (0x80, 0xBF)],
   [(0xE0, 0xE0), (0xA0, 0xBF), (0x80, 0xBF)],
   [(0xE1, 0xEC), (0x80, 0xBF), (0x80, 0xBF)],
   [(0xED, 0xED), (0x80, 0x9F), (0x80, 0xBF)],
   [(0xEE, 0xEF), (0x80, 0xBF), (0x80, 0xBF)],
   [(0xF0, 0xF0), (0x90, 0xBF), (0x80, 0xBF), (0x80, 0xBF)],
   [(0xF1, 0xF3), (0x80, 0xBF), (0x80, 0xBF), (0x80, 0xBF)],
   [(0xF4, 0xF4), (0x80, 0x8F), (0x80, 0xBF), (0x80, 0xBF)]]

/-- A byte in a range of the table. -/
def InRange (range : Nat × Nat) (byte : UInt8) : Prop :=
  range.1 ≤ byte.toNat ∧ byte.toNat ≤ range.2

/-- The bytes of one character by the table. -/
def IsSequence (bytes : List UInt8) : Prop :=
  ∃ row ∈ sequences, List.Forall₂ InRange row bytes

/-- The byte strings that are made of sequences of the table. -/
def WellFormed (bytes : List UInt8) : Prop :=
  ∃ parts : List (List UInt8), (∀ part ∈ parts, IsSequence part) ∧ parts.flatten = bytes

/-! ### Characters by the table -/

section Sequences

variable {bytes : List UInt8} {byte a b c d : UInt8} {number : Nat}

/-- A byte in the range of a continuation byte is read as one. -/
theorem continuations?_of_inRange (count number : Nat) (rest : List UInt8)
    (continues : InRange (0x80, 0xBF) byte) :
    continuations? (count + 1) number (byte :: rest) =
      continuations? count (number * 0x40 + (byte.toNat - 0x80)) rest := by
  obtain ⟨low, high⟩ := continues
  rw [continuations?, if_pos ⟨low, Nat.lt_succ_of_le high⟩]

/-- A sequence whose number may have this many bytes is the encoding of a character. -/
theorem exists_encode_of_continuations? {lead : Lead} (leads : Lead.ofByte? byte = some lead)
    (following : continuations? lead.following lead.payload bytes = some (number, []))
    (valid : number.isValidChar) (least : lead.least ≤ number) :
    ∃ char, String.utf8EncodeChar char = byte :: bytes := by
  have read : firstChar? (byte :: bytes) = some (Char.ofNat number, []) := by
    simp [firstChar?, leads, following, scalar?, valid, least]
  exact ⟨Char.ofNat number, by simpa using encode_of_firstChar? read⟩

theorem exists_encode_one (inA : InRange (0x00, 0x7F) a) :
    ∃ char, String.utf8EncodeChar char = [a] := by
  simp only [InRange] at inA
  have lead : Lead.ofByte? a = some ⟨0, 0, a.toNat⟩ := by
    rw [Lead.ofByte?, if_pos (by omega)]
  exact exists_encode_of_continuations? lead rfl (.inl (by dsimp only; omega)) (Nat.zero_le _)

theorem exists_encode_two (inA : InRange (0xC2, 0xDF) a) (inB : InRange (0x80, 0xBF) b) :
    ∃ char, String.utf8EncodeChar char = [a, b] := by
  have following := continuations?_of_inRange 0 (a.toNat - 0xC0) [] inB
  simp only [InRange] at inA inB
  have lead : Lead.ofByte? a = some ⟨1, 0x80, a.toNat - 0xC0⟩ := by
    rw [Lead.ofByte?, if_neg (by omega), if_neg (by omega), if_pos (by omega)]
  exact exists_encode_of_continuations? lead following (.inl (by omega)) (by dsimp only; omega)

/-- Three bytes are the encoding of a character unless two would do or it would be a surrogate. -/
theorem exists_encode_three (inA : InRange (0xE0, 0xEF) a) (inB : InRange (0x80, 0xBF) b)
    (inC : InRange (0x80, 0xBF) c) (shortest : a.toNat = 0xE0 → 0xA0 ≤ b.toNat)
    (noSurrogate : a.toNat = 0xED → b.toNat ≤ 0x9F) :
    ∃ char, String.utf8EncodeChar char = [a, b, c] := by
  have following := (continuations?_of_inRange 1 (a.toNat - 0xE0) [c] inB).trans
    (continuations?_of_inRange 0 _ [] inC)
  simp only [InRange] at inA inB inC
  have lead : Lead.ofByte? a = some ⟨2, 0x800, a.toNat - 0xE0⟩ := by
    rw [Lead.ofByte?, if_neg (by omega), if_neg (by omega), if_neg (by omega), if_pos (by omega)]
  refine exists_encode_of_continuations? lead following ?_ (by dsimp only; omega)
  rw [Nat.isValidChar]
  omega

/-- Four bytes are the encoding of a character unless three would do or the number is too great. -/
theorem exists_encode_four (inA : InRange (0xF0, 0xF4) a) (inB : InRange (0x80, 0xBF) b)
    (inC : InRange (0x80, 0xBF) c) (inD : InRange (0x80, 0xBF) d)
    (shortest : a.toNat = 0xF0 → 0x90 ≤ b.toNat) (inside : a.toNat = 0xF4 → b.toNat ≤ 0x8F) :
    ∃ char, String.utf8EncodeChar char = [a, b, c, d] := by
  have following := ((continuations?_of_inRange 2 (a.toNat - 0xF0) [c, d] inB).trans
    (continuations?_of_inRange 1 _ [d] inC)).trans (continuations?_of_inRange 0 _ [] inD)
  simp only [InRange] at inA inB inC inD
  have lead : Lead.ofByte? a = some ⟨3, 0x10000, a.toNat - 0xF0⟩ := by
    rw [Lead.ofByte?, if_neg (by omega), if_neg (by omega), if_neg (by omega), if_neg (by omega),
      if_pos (by omega)]
  refine exists_encode_of_continuations? lead following ?_ (by dsimp only; omega)
  rw [Nat.isValidChar]
  omega

/-- A sequence of the table is the encoding of a character. -/
theorem IsSequence.exists_encode (isSequence : IsSequence bytes) :
    ∃ char, String.utf8EncodeChar char = bytes := by
  obtain ⟨row, member, inRanges⟩ := isSequence
  simp only [sequences, List.mem_cons, List.not_mem_nil, or_false] at member
  rcases member with one | two | three | three | three | three | four | four | four
  · subst one
    obtain _ | ⟨inA, _ | _⟩ := inRanges
    exact exists_encode_one inA
  · subst two
    obtain _ | ⟨inA, _ | ⟨inB, _ | _⟩⟩ := inRanges
    exact exists_encode_two inA inB
  -- the other rows differ in the ranges of the first two bytes only
  iterate 4
    subst three
    obtain _ | ⟨inA, _ | ⟨inB, _ | ⟨inC, _ | _⟩⟩⟩ := inRanges
    simp only [InRange] at inA inB inC
    apply exists_encode_three <;> (try simp only [InRange]) <;> omega
  iterate 3
    subst four
    obtain _ | ⟨inA, _ | ⟨inB, _ | ⟨inC, _ | ⟨inD, _ | _⟩⟩⟩⟩ := inRanges
    simp only [InRange] at inA inB inC inD
    apply exists_encode_four <;> (try simp only [InRange]) <;> omega

theorem inRange_ofNat {low high : Nat} (le : low ≤ number) (le' : number ≤ high)
    (small : high < 256) : InRange (low, high) (UInt8.ofNat number) := by
  rw [InRange, UInt8.toNat_ofNat_of_lt' (Nat.lt_of_le_of_lt le' small)]
  exact ⟨le, le'⟩

theorem inRange_sixBits (number : Nat) :
    InRange (0x80, 0xBF) (UInt8.ofNat (number % 0x40 + 0x80)) :=
  inRange_ofNat (by omega) (by omega) (by decide)

/-- The three bytes of a number are a sequence if the first two of them are in the ranges of a row. -/
theorem isSequence_three_of_row (low high low' high' : Nat)
    (row : [(low, high), (low', high'), (0x80, 0xBF)] ∈ sequences)
    (lead : low ≤ number / 0x1000 % 0x10 + 0xE0 ∧ number / 0x1000 % 0x10 + 0xE0 ≤ high)
    (next : low' ≤ number / 0x40 % 0x40 + 0x80 ∧ number / 0x40 % 0x40 + 0x80 ≤ high')
    (small : high < 256 ∧ high' < 256) :
    IsSequence [UInt8.ofNat (number / 0x1000 % 0x10 + 0xE0),
      UInt8.ofNat (number / 0x40 % 0x40 + 0x80), UInt8.ofNat (number % 0x40 + 0x80)] :=
  ⟨_, row, .cons (inRange_ofNat lead.1 lead.2 small.1)
    (.cons (inRange_ofNat next.1 next.2 small.2) (.cons (inRange_sixBits number) .nil))⟩

/-- The three bytes of a number are a sequence if two would not do and it is no surrogate. -/
theorem isSequence_three (least : 0x800 ≤ number) (few : number < 0x10000)
    (noSurrogate : number < 0xD800 ∨ 0xDFFF < number) :
    IsSequence [UInt8.ofNat (number / 0x1000 % 0x10 + 0xE0),
      UInt8.ofNat (number / 0x40 % 0x40 + 0x80), UInt8.ofNat (number % 0x40 + 0x80)] := by
  have rows : number < 0x1000 ∨ 0x1000 ≤ number ∧ number < 0xD000 ∨
      0xD000 ≤ number ∧ number < 0xD800 ∨ 0xE000 ≤ number := by omega
  rcases rows with shortest | low | belowSurrogates | high
  · exact isSequence_three_of_row 0xE0 0xE0 0xA0 0xBF (by decide) (by omega) (by omega) (by decide)
  · exact isSequence_three_of_row 0xE1 0xEC 0x80 0xBF (by decide) (by omega) (by omega) (by decide)
  · exact isSequence_three_of_row 0xED 0xED 0x80 0x9F (by decide) (by omega) (by omega) (by decide)
  · exact isSequence_three_of_row 0xEE 0xEF 0x80 0xBF (by decide) (by omega) (by omega) (by decide)

/-- The four bytes of a number are a sequence if the first two of them are in the ranges of a row. -/
theorem isSequence_four_of_row (low high low' high' : Nat)
    (row : [(low, high), (low', high'), (0x80, 0xBF), (0x80, 0xBF)] ∈ sequences)
    (lead : low ≤ number / 0x40000 % 0x08 + 0xF0 ∧ number / 0x40000 % 0x08 + 0xF0 ≤ high)
    (next : low' ≤ number / 0x1000 % 0x40 + 0x80 ∧ number / 0x1000 % 0x40 + 0x80 ≤ high')
    (small : high < 256 ∧ high' < 256) :
    IsSequence [UInt8.ofNat (number / 0x40000 % 0x08 + 0xF0),
      UInt8.ofNat (number / 0x1000 % 0x40 + 0x80), UInt8.ofNat (number / 0x40 % 0x40 + 0x80),
      UInt8.ofNat (number % 0x40 + 0x80)] :=
  ⟨_, row, .cons (inRange_ofNat lead.1 lead.2 small.1)
    (.cons (inRange_ofNat next.1 next.2 small.2)
      (.cons (inRange_sixBits (number / 0x40)) (.cons (inRange_sixBits number) .nil)))⟩

/-- The four bytes of a number are a sequence if three would not do and it is not too great. -/
theorem isSequence_four (least : 0x10000 ≤ number) (inside : number < 0x110000) :
    IsSequence [UInt8.ofNat (number / 0x40000 % 0x08 + 0xF0),
      UInt8.ofNat (number / 0x1000 % 0x40 + 0x80), UInt8.ofNat (number / 0x40 % 0x40 + 0x80),
      UInt8.ofNat (number % 0x40 + 0x80)] := by
  have rows : number < 0x40000 ∨ 0x40000 ≤ number ∧ number < 0x100000 ∨ 0x100000 ≤ number := by
    omega
  rcases rows with shortest | low | high
  · exact isSequence_four_of_row 0xF0 0xF0 0x90 0xBF (by decide) (by omega) (by omega) (by decide)
  · exact isSequence_four_of_row 0xF1 0xF3 0x80 0xBF (by decide) (by omega) (by omega) (by decide)
  · exact isSequence_four_of_row 0xF4 0xF4 0x80 0x8F (by decide) (by omega) (by omega) (by decide)

/-- The encoding of a character is a sequence of the table. -/
theorem isSequence_encode (char : Char) : IsSequence (String.utf8EncodeChar char) := by
  have valid : char.toNat < 0xD800 ∨ 0xDFFF < char.toNat ∧ char.toNat < 0x110000 := char.valid
  simp only [String.utf8EncodeChar, Char.toNat_val]
  generalize char.toNat = n at valid
  -- one case for each length
  split
  · have row : [(0x00, 0x7F)] ∈ sequences := by decide
    exact ⟨_, row, .cons (inRange_ofNat (by omega) (by omega) (by decide)) .nil⟩
  split
  · have row : [(0xC2, 0xDF), (0x80, 0xBF)] ∈ sequences := by decide
    exact ⟨_, row, .cons (inRange_ofNat (by omega) (by omega) (by decide))
      (.cons (inRange_sixBits n) .nil)⟩
  split
  · exact isSequence_three (by omega) (by omega) (by omega)
  · exact isSequence_four (by omega) (by omega)

/-- The sequences of the table are the encodings of the characters. -/
theorem isSequence_iff : IsSequence bytes ↔ ∃ char, String.utf8EncodeChar char = bytes := by
  constructor
  · exact IsSequence.exists_encode
  · rintro ⟨char, rfl⟩
    exact isSequence_encode char

end Sequences

/-! ### Texts by the table -/

section WellFormed

variable {bytes : List UInt8} {position : Nat}

/-- The well-formed byte strings are the encodings of the texts. -/
theorem wellFormed_iff : WellFormed bytes ↔ ∃ text, encode text = bytes := by
  constructor
  · rintro ⟨parts, sequences, rfl⟩
    induction parts with
    | nil => exact ⟨[], rfl⟩
    | cons part parts ih =>
      obtain ⟨here, later⟩ := List.forall_mem_cons.1 sequences
      obtain ⟨char, rfl⟩ := isSequence_iff.1 here
      obtain ⟨text, encoded⟩ := ih later
      exact ⟨char :: text, by rw [encode_cons, encoded, List.flatten_cons]⟩
  · rintro ⟨text, rfl⟩
    exact ⟨text.map String.utf8EncodeChar,
      List.forall_mem_map.2 fun char _ => isSequence_iff.2 ⟨char, rfl⟩, (List.flatMap_def ..).symm⟩

/-- The byte strings that can be read are the well-formed ones. -/
theorem exists_decode_iff : (∃ text, decode bytes = .ok text) ↔ WellFormed bytes := by
  simp only [decode_eq_ok_iff, wellFormed_iff]

/-- A byte string is refused with the length of its longest well-formed beginning, and only if it is
not well formed as a whole. -/
theorem decode_eq_error_iff :
    decode bytes = .error position ↔
      ¬WellFormed bytes ∧
        IsGreatest {n | n ≤ bytes.length ∧ WellFormed (bytes.take n)} position := by
  -- what is refused is refused there
  have greatest {stop : Nat} (refused : decode bytes = .error stop) :
      IsGreatest {n | n ≤ bytes.length ∧ WellFormed (bytes.take n)} stop := by
    constructor
    · obtain ⟨text, rest, rfl, rfl⟩ := exists_of_decodeFrom_eq_error refused
      rw [Nat.zero_add]
      exact ⟨by simp, wellFormed_iff.2 ⟨text, List.take_left.symm⟩⟩
    · rintro n ⟨le, wellFormed⟩
      obtain ⟨text, encoded⟩ := wellFormed_iff.1 wellFormed
      -- the reader passes over the first `n` bytes, so it does not stop in them
      have parts := List.take_append_drop n bytes
      rw [← encoded] at parts
      rw [← parts, decode, decodeFrom_encode_append, Nat.zero_add, encoded,
        List.length_take_of_le le] at refused
      exact le_of_decodeFrom_eq_error refused
  constructor
  · intro refused
    refine ⟨fun wellFormed => ?_, greatest refused⟩
    obtain ⟨text, read⟩ := exists_decode_iff.2 wellFormed
    rw [refused] at read
    cases read
  · rintro ⟨illFormed, longest⟩
    cases read : decode bytes with
    | ok text => exact absurd (exists_decode_iff.1 ⟨text, read⟩) illFormed
    | error stop => rw [(greatest read).unique longest]

end WellFormed

end SearchKeys.Text
