/-
# Reading quoted text

What stands between quotes in a listing can be told: each character is read back from how it is
written, and the quote that ends the string is the first one that stands for itself. No control
character is left in a quoted string, so it neither ends a line nor starts an escape sequence.

## Main definitions

* `Text.readQuotedChar?`: the character that the text between quotes begins with.

## Main results

* `Text.valueOf_toDigits`: hexadecimal digits stand for the number they were written for.
* `Text.readQuotedChar?_quotedChar`: a written character is read back.
* `Text.quoted_append_inj`: a quoted string is told by any text that begins with it.
* `Text.le_toNat_of_mem_quoted`: no control character is left in a quoted string.
-/

import SearchKeys.Proofs.Text.Blank
import SearchKeys.Proofs.Text.Joined
import SearchKeys.Text.Quoted
import SearchKeys.Toml.Digits
import Mathlib.Tactic.SplitIfs

namespace SearchKeys.Text

/-! ### Characters by number -/

/-- What holds of the sixteen digits holds of all digits of a number. -/
theorem forall_mem_toDigits {motive : Char → Prop} (digit : ∀ d < 16, motive (Nat.digitChar d))
    (number : Nat) : ∀ c ∈ Nat.toDigits 16 number, motive c := by
  induction number using Nat.strongRecOn with
  | ind number ih =>
    rcases Nat.lt_or_ge number 16 with small | large
    · rw [Nat.toDigits_of_lt_base small]
      exact List.forall_mem_singleton.2 (digit number small)
    · rw [Nat.toDigits_of_base_le (by decide) large, List.forall_mem_append]
      exact ⟨ih (number / 16) (by omega), List.forall_mem_singleton.2 (digit _ (by omega))⟩

theorem digitValue_digitChar : ∀ d < 16, Toml.digitValue (Nat.digitChar d) = d := by
  decide

/-- Hexadecimal digits stand for the number they were written for. -/
theorem valueOf_toDigits (number : Nat) :
    Toml.valueOf 16 (Nat.toDigits 16 number) = number := by
  induction number using Nat.strongRecOn with
  | ind number ih =>
    rcases Nat.lt_or_ge number 16 with small | large
    · rw [Nat.toDigits_of_lt_base small, Toml.valueOf, List.foldl_cons, List.foldl_nil,
        digitValue_digitChar number small, Nat.zero_mul, Nat.zero_add]
    · have front := ih (number / 16) (by omega)
      rw [Toml.valueOf] at front
      rw [Nat.toDigits_of_base_le (by decide) large, Toml.valueOf, List.foldl_append, front,
        List.foldl_cons, List.foldl_nil, digitValue_digitChar _ (by omega)]
      omega

theorem brace_notMem_toDigits (number : Nat) : '\x7d' ∉ Nat.toDigits 16 number := fun member =>
  forall_mem_toDigits (motive := (· ≠ '\x7d')) (by decide) number _ member rfl

/-! ### Reading back -/

/-- The character that a letter behind a backslash stands for. -/
def unescapedLetter : Char → Char
  | '0' => '\x00'
  | 't' => '\t'
  | 'r' => '\r'
  | 'n' => '\n'
  | c => c

/-- The first character that a text between quotes stands for, and the text behind it. There is
none where the quotes end. -/
def readQuotedChar? : List Char → Option (Char × List Char)
  | '\\' :: 'u' :: '\x7b' :: rest =>
    some (Char.ofNat (Toml.valueOf 16 (rest.takeWhile (· != '\x7d'))),
      (rest.dropWhile (· != '\x7d')).tail)
  | '\\' :: letter :: rest => some (unescapedLetter letter, rest)
  | '"' :: _ | [] => none
  | c :: rest => some (c, rest)

theorem readQuotedChar?_numbered (c : Char) (rest : List Char) :
    readQuotedChar? (numbered c ++ rest) = some (c, rest) := by
  -- the number ends at the first brace behind it, which is none of its digits
  have inside : ∀ d ∈ Nat.toDigits 16 c.toNat, (d != '\x7d') = true := fun d member => by
    rw [bne_iff_ne]
    rintro rfl
    exact brace_notMem_toDigits c.toNat member
  have stops : ∀ d, ('\x7d' :: rest).head? = some d → (d != '\x7d') = false := by simp
  simp only [numbered, List.append_assoc, List.cons_append, List.nil_append, readQuotedChar?]
  rw [takeWhile_append inside stops, dropWhile_append inside stops, valueOf_toDigits,
    Char.ofNat_toNat, List.tail_cons]

/-- A written character is read back, whatever follows it. -/
theorem readQuotedChar?_quotedChar (c : Char) (rest : List Char) :
    readQuotedChar? (quotedChar c ++ rest) = some (c, rest) := by
  unfold quotedChar
  split_ifs with _ _ _ _ backslash
  -- the short escapes are read by their letters
  all_goals try (subst c; rfl)
  · exact readQuotedChar?_numbered c rest
  · simp [readQuotedChar?, backslash]

/-- A quoted string is told by any text that begins with it. -/
theorem quoted_append_inj {first second : String} {s t : List Char}
    (same : (quoted first).toList ++ s = (quoted second).toList ++ t) : first = second ∧ s = t := by
  simp only [quoted, String.toList_ofList, List.cons_append, List.append_assoc, List.nil_append,
    List.cons.injEq, true_and] at same
  exact (flatMap_append_inj readQuotedChar?_quotedChar (fun _ => rfl) same).imp_left
    String.toList_injective

/-! ### What is left of control characters -/

theorem le_toNat_of_mem_quotedChar {c d : Char} (member : d ∈ quotedChar c) :
    0x20 ≤ d.toNat := by
  have number : ∀ d ∈ numbered c, 0x20 ≤ d.toNat := by
    simp only [numbered, List.forall_mem_append]
    exact ⟨⟨by simp, forall_mem_toDigits (by decide) c.toNat⟩, by simp⟩
  revert d
  change ∀ d ∈ quotedChar c, 0x20 ≤ d.toNat
  unfold quotedChar
  split_ifs with _ _ _ _ _ _ hidden
  -- a backslash and a letter
  all_goals try (simp; done)
  · exact number
  · -- a character that stands for itself is none that would have to be numbered
    rw [List.forall_mem_singleton]
    omega

/-- No control character is left in a quoted string. -/
theorem le_toNat_of_mem_quoted {text : String} {d : Char} (member : d ∈ (quoted text).toList) :
    0x20 ≤ d.toNat := by
  rw [quoted, String.toList_ofList, List.cons_append, List.mem_cons, List.mem_append,
    List.mem_flatMap, List.mem_singleton] at member
  rcases member with rfl | ⟨c, -, member⟩ | rfl
  · decide
  · exact le_toNat_of_mem_quotedChar member
  · decide

end SearchKeys.Text
