/-
# Digits

Numbers of a TOML document have digits in the bases two, eight, ten and sixteen.

## Main definitions

* `Toml.isHexDigit`: the digits of the base sixteen.
* `Toml.valueOf`: the number that digits stand for.
-/

namespace SearchKeys.Toml

/-- The digits of the base sixteen, in capitals or small letters. -/
def isHexDigit (c : Char) : Bool :=
  c.isDigit || ('a' ≤ c && c ≤ 'f') || ('A' ≤ c && c ≤ 'F')

/-- The value of a digit; letters continue after nine. -/
def digitValue (c : Char) : Nat :=
  if c.isDigit then c.toNat - '0'.toNat else c.toLower.toNat - 'a'.toNat + 10

/-- The number that digits stand for. -/
def valueOf (base : Nat) (digits : List Char) : Nat :=
  digits.foldl (fun value digit => value * base + digitValue digit) 0

end SearchKeys.Toml
