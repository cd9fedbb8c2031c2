/-
# Refused keys

Keys are refused for one of three causes; everything else about them is tolerated and
reported as a warning.

## Main definitions

* `KeysError`: the causes.
* `KeysError.message`, `KeysError.hint`: the wording, and what to do about it.
-/

namespace SearchKeys

/-- Why keys cannot be read or a reading of them cannot be chosen. -/
inductive KeysError
  /-- The raw keys are well-formed UTF-8 only up to this byte. -/
  | invalidUtf8 (position : Nat)
  /-- No parse mode is registered under this id. -/
  | unknownMode (id : String)
  /-- The text names no conjunction. -/
  | invalidConjunction (value : String)
  deriving DecidableEq, Repr

namespace KeysError

/-- The wording of a refusal. -/
def message : KeysError → String
  | invalidUtf8 position =>
    "keys are not valid UTF-8 (invalid sequence at byte " ++ toString position ++ ")"
  | unknownMode id => "unknown parse mode: " ++ id
  | invalidConjunction value =>
    "invalid conjunction '" ++ value ++ "' (expected AND or OR)"

/-- A way out of the refusal. -/
def hint : KeysError → String
  | invalidUtf8 _ => "Re-encode the input as UTF-8 before parsing"
  | unknownMode _ => "Run 'sk modes' to list the available parse modes"
  | invalidConjunction _ => "Use either AND or OR"

end KeysError

end SearchKeys
