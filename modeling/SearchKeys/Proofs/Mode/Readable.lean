/-
# Keys that can be read

Whether raw keys can be read does not depend on what is looked for in them. All modes and the scan
decode them first, so all of them accept the same keys, which are the well-formed ones, and all of
them refuse the others at the same byte.

## Main results

* `Mode.exists_analysis`: the modes that are always there accept every text.
* `Mode.analyze_of_refused`: they refuse keys that cannot be decoded where the decoder stops.
* `Mode.analyze_readable_or_refused`: both by the form of the keys, for the scan as well.
-/

import SearchKeys.Proofs.Query.Keys
import SearchKeys.Proofs.Text.WellFormed

namespace SearchKeys.Mode

variable {default : Conjunction} {mode : Mode} {keys : List UInt8} {position : Nat}

/-- The modes that are always there accept every text. -/
theorem exists_analysis (standard : mode ∈ Registry.standard.createAll default)
    (text : List Char) : ∃ analysis, mode.analyze (Text.encode text) = .ok analysis := by
  rw [createAll_standard] at standard
  simp only [List.mem_cons, List.not_mem_nil, or_false] at standard
  rcases standard with rfl | rfl | rfl <;> exact ⟨_, analyze_ofText ..⟩

/-- The modes that are always there refuse keys that cannot be decoded where the decoder stops. -/
theorem analyze_of_refused (standard : mode ∈ Registry.standard.createAll default)
    (refused : Text.decode keys = .error position) :
    mode.analyze keys = .error (.invalidUtf8 position) := by
  have ofText (id label description : String) (analyze : List Char → Analysis) :
      (ofText id label description default analyze).analyze keys =
        .error (.invalidUtf8 position) := by
    simp [Mode.ofText, decodeKeys, refused, Except.map]
  rw [createAll_standard] at standard
  simp only [List.mem_cons, List.not_mem_nil, or_false] at standard
  rcases standard with rfl | rfl | rfl <;> exact ofText ..

theorem query?_of_refused (refused : mode.analyze keys = .error (.invalidUtf8 position)) :
    mode.query? keys = none := by
  rw [query?, refused]

/-- The modes that are always there and the scan accept all keys that are well-formed UTF-8. They all
refuse any others at the same byte, which is the one behind the longest well-formed beginning of the
keys, and find no query in them. -/
theorem analyze_readable_or_refused (keys : List UInt8) :
    (Text.WellFormed keys ∧
      (∀ default, ∀ mode ∈ Registry.standard.createAll default,
        ∃ analysis, mode.analyze keys = .ok analysis) ∧
      ∃ scanned, Token.scanBytes keys = .ok scanned) ∨
    (¬Text.WellFormed keys ∧
      ∃ position, IsGreatest {n | n ≤ keys.length ∧ Text.WellFormed (keys.take n)} position ∧
        (∀ default, ∀ mode ∈ Registry.standard.createAll default,
          mode.analyze keys = .error (.invalidUtf8 position) ∧ mode.query? keys = none) ∧
        Token.scanBytes keys = .error (.invalidUtf8 position) ∧
        ∀ default, Query.ofBytes? default keys = none) := by
  -- everything is decided by the decoder, which is asked first everywhere
  cases read : Text.decode keys with
  | ok text =>
    have wellFormed := Text.exists_decode_iff.1 ⟨text, read⟩
    refine .inl ⟨wellFormed, fun default mode standard => ?_, ?_⟩
    · rw [← Text.decode_eq_ok_iff.1 read]
      exact exists_analysis standard text
    · exact ⟨Token.scan text, by rw [Token.scanBytes, read]⟩
  | error position =>
    obtain ⟨illFormed, longest⟩ := Text.decode_eq_error_iff.1 read
    refine .inr ⟨illFormed, position, longest, fun default mode standard => ?_, ?_, fun default => ?_⟩
    · have refused := analyze_of_refused standard read
      exact ⟨refused, query?_of_refused refused⟩
    · rw [Token.scanBytes, read]
    · have standard : complex default ∈ Registry.standard.createAll default := .head _
      exact query?_of_refused (analyze_of_refused standard read)

/-- A surrogate is not a character, although its bytes have the form of one. -/
theorem analyze_readable_or_refused_surrogate :
    let keys : List UInt8 := [0x61, 0xC3, 0xA9, 0xED, 0xA0, 0x80, 0x62]
    (complex .and).analyze keys = .error (.invalidUtf8 3) ∧
      (phrase .or).analyze keys = .error (.invalidUtf8 3) ∧
      (terms .or).query? keys = none ∧ Query.ofBytes? .or keys = none ∧
      Token.scanBytes keys = .error (.invalidUtf8 3) := by
  intro keys
  have stops : Token.scanBytes keys = .error (.invalidUtf8 3) := by decide +kernel
  rcases analyze_readable_or_refused keys with
    ⟨-, -, scanned, read⟩ | ⟨-, position, -, refused, scanned, noQuery⟩
  · rw [stops] at read
    cases read
  · obtain rfl : position = 3 := by simpa [stops, eq_comm] using scanned
    refine ⟨(refused .and _ (.head _)).1, (refused .or _ (.tail _ (.head _))).1,
      (refused .or _ (.tail _ (.tail _ (.head _)))).2, noQuery .or, stops⟩

end SearchKeys.Mode
