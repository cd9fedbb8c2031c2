/-
# The whole input as one phrase

The phrase mode takes the keys as they are, without the blanks around them.

## Main definitions

* `Mode.analyzePhrase`: the one phrase of a text.
* `Mode.phrase`: the mode.
-/

import SearchKeys.Mode
import SearchKeys.Text.Blank

namespace SearchKeys.Mode

/-- Reads keys as a single phrase. Blank keys hold none. -/
def analyzePhrase (conjunction : Conjunction) (text : List Char) : Analysis :=
  let phrase := Text.trim text
  if phrase.isEmpty then .empty
  else
    let key := String.ofList phrase
    ⟨[.phrase key], some ⟨conjunction, false, [.keys key]⟩, []⟩

/-- The mode for a single phrase. -/
def phrase (conjunction : Conjunction) : Mode :=
  ofText "phrase" "Single phrase" "The entire input is searched as one phrase" conjunction
    (analyzePhrase conjunction)

end SearchKeys.Mode
