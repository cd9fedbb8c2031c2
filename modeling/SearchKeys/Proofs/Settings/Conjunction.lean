/-
# Spellings of a conjunction

A conjunction is given on the command line or in a configuration file, as a text. The command
line does not look at the case of the letters. A configuration file knows a conjunction in
capitals and in small letters, and refuses the spellings that mix the two.

## Main definitions

* `Conjunction.OneCase`: a text without capitals, or without small letters.

## Main results

* `Conjunction.parse_eq_ok_iff`: what the command line accepts.
* `Conjunction.ofSetting?_eq_some_iff`: what a configuration file accepts.
* `Conjunction.spellings_accepted_iff`: how the two differ.
-/

import Mathlib
import SearchKeys.Settings.File

namespace SearchKeys.Conjunction

variable {value first second : String} {conjunction other : Conjunction}

/-- The letters of the text are small throughout, or capitals throughout. -/
def OneCase (value : String) : Prop :=
  value.toList.map Char.toLower = value.toList ∨ value.toList.map Char.toUpper = value.toList

theorem sameLetters_iff : sameLetters first second ↔
    first.toList.map Char.toLower = second.toList.map Char.toLower :=
  beq_iff_eq

/-- Texts that differ in the case of their letters at most have the same capitals. -/
theorem map_toUpper_of_sameLetters (same : sameLetters first second) :
    first.toList.map Char.toUpper = second.toList.map Char.toUpper := by
  have upper (text : String) :
      text.toList.map Char.toUpper = (text.toList.map Char.toLower).map Char.toUpper := by
    simp
  rw [upper first, sameLetters_iff.1 same, ← upper second]

theorem toUpper_keyword (conjunction : Conjunction) :
    conjunction.keyword.toList.map Char.toUpper = conjunction.keyword.toList := by
  cases conjunction <;> decide

/-- No text spells two conjunctions. -/
theorem eq_of_sameLetters (same : sameLetters value conjunction.keyword)
    (same' : sameLetters value other.keyword) : conjunction = other := by
  have letters : sameLetters conjunction.keyword other.keyword := by
    rw [sameLetters_iff] at *
    exact same.symm.trans same'
  revert letters
  cases conjunction <;> cases other <;> decide

/-- The command line accepts every spelling of the keyword. -/
theorem parse_eq_ok_iff :
    parse value = .ok conjunction ↔ sameLetters value conjunction.keyword := by
  constructor
  · intro accepted
    unfold parse at accepted
    split at accepted
    · next isAnd => cases accepted; exact isAnd
    · split at accepted
      · next isOr => cases accepted; exact isOr
      · cases accepted
  · intro same
    have onlyOne (other : Conjunction) (same' : sameLetters value other.keyword) :
        other = conjunction := eq_of_sameLetters same' same
    unfold parse
    split
    · next isAnd => rw [onlyOne .and isAnd]
    · next noAnd =>
      split
      · next isOr => rw [onlyOne .or isOr]
      · next noOr => cases conjunction <;> contradiction

/-- A configuration file accepts the keyword and the keyword in small letters. -/
theorem ofSetting?_eq_some_iff : ofSetting? value = some conjunction ↔
    value.toList = conjunction.keyword.toList ∨
      value.toList = conjunction.keyword.toList.map Char.toLower := by
  have keyword (spelling : String) : value.toList = spelling.toList ↔ value = spelling :=
    String.toList_inj
  have inSmall : "AND".toList.map Char.toLower = "and".toList ∧
      "OR".toList.map Char.toLower = "or".toList := by
    decide
  simp only [ofSetting?, settingSpellings, Dictionary.lookup_cons, List.lookup_nil]
  cases conjunction with
  | and =>
    rw [Conjunction.keyword, inSmall.1, keyword, keyword]
    split_ifs <;> simp_all
  | or =>
    rw [Conjunction.keyword, inSmall.2, keyword, keyword]
    split_ifs <;> simp_all

/-- The value of a field is a conjunction exactly if it is a string that spells one. -/
theorem readChoiceValue_eq_ok_iff :
    readChoiceValue settingSpellings (.string value) = .ok conjunction ↔
      ofSetting? value = some conjunction := by
  rw [readChoiceValue, readChoice, ofSetting?]
  cases settingSpellings.lookup value <;> simp

/-- The command line accepts exactly the spellings of the keyword, in any case of their letters,
and a configuration file accepts exactly those of them that do not mix the cases. -/
theorem spellings_accepted_iff (value : String) (conjunction : Conjunction) :
    (parse value = .ok conjunction ↔ sameLetters value conjunction.keyword) ∧
      (readChoiceValue settingSpellings (.string value) = .ok conjunction ↔
        parse value = .ok conjunction ∧ OneCase value) := by
  refine ⟨parse_eq_ok_iff, ?_⟩
  rw [readChoiceValue_eq_ok_iff, ofSetting?_eq_some_iff, parse_eq_ok_iff]
  constructor
  · rintro (capitals | small)
    · rw [sameLetters_iff, OneCase, capitals]
      exact ⟨rfl, .inr (toUpper_keyword conjunction)⟩
    · rw [sameLetters_iff, OneCase, small]
      simp
  · rintro ⟨same, small | capitals⟩
    · exact .inr (small.symm.trans (sameLetters_iff.1 same))
    · rw [← capitals, map_toUpper_of_sameLetters same, toUpper_keyword]
      exact .inl rfl

/-- A conjunction with one capital is accepted on the command line only. -/
theorem spellings_accepted_ne : ¬∀ (value : String) (conjunction : Conjunction),
    parse value = .ok conjunction ↔
      readChoiceValue settingSpellings (.string value) = .ok conjunction := by
  intro agree
  have accepted : parse "And" = .ok .and := by decide
  have read := readChoiceValue_eq_ok_iff.1 ((agree "And" .and).1 accepted)
  exact absurd read (by decide)

end SearchKeys.Conjunction
