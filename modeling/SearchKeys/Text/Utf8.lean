/-
# Reading UTF-8

Raw keys and configuration files are byte strings. They are read as UTF-8 in its shortest
form: no overlong sequence, no surrogate, nothing above U+10FFFF. A byte string that cannot
be read is refused with the length of its longest readable beginning.

## Main definitions

* `Text.firstChar?`: the first character of a byte string and the bytes after it.
* `Text.decode`: the characters of a byte string, or the number of bytes that can be read.
* `Text.encode`: the bytes of a text.

## Main results

* `Text.firstChar?_shorter`: reading a character uses up at least one byte.
-/

namespace SearchKeys.Text

/-- What the first byte of a sequence says: how many bytes follow, the least character that
needs a sequence of this length, and its own share of the character's number. -/
structure Lead where
  /-- The number of continuation bytes. -/
  following : Nat
  /-- The least number that takes a sequence of this length. -/
  least : Nat
  /-- The high bits of the number. -/
  payload : Nat

/-- The meaning of a first byte; a continuation byte and a byte from `0xF8` on has none. -/
def Lead.ofByte? (byte : UInt8) : Option Lead :=
  if byte.toNat < 0x80 then some ⟨0, 0, byte.toNat⟩
  else if byte.toNat < 0xC0 then none
  else if byte.toNat < 0xE0 then some ⟨1, 0x80, byte.toNat - 0xC0⟩
  else if byte.toNat < 0xF0 then some ⟨2, 0x800, byte.toNat - 0xE0⟩
  else if byte.toNat < 0xF8 then some ⟨3, 0x10000, byte.toNat - 0xF0⟩
  else none

/-- Reads `count` continuation bytes, which have the form `10xxxxxx`, below the high bits
already read. -/
def continuations? : Nat → Nat → List UInt8 → Option (Nat × List UInt8)
  | 0, number, rest => some (number, rest)
  | _ + 1, _, [] => none
  | count + 1, number, byte :: rest =>
    if 0x80 ≤ byte.toNat ∧ byte.toNat < 0xC0 then
      continuations? count (number * 0x40 + (byte.toNat - 0x80)) rest
    else none

/-- Reading continuation bytes leaves no more bytes than there were. -/
theorem continuations?_length {count number value : Nat} {bytes rest : List UInt8}
    (read : continuations? count number bytes = some (value, rest)) :
    rest.length ≤ bytes.length := by
  fun_induction continuations? count number bytes with
  | case1 => simp_all
  | case2 => cases read
  | case3 _ _ _ _ _ ih =>
    have := ih read
    simp only [List.length_cons]
    omega
  | case4 => cases read

/-- The character with the given number, if the number is at least `least`. A sequence for a
smaller number is overlong. -/
def scalar? (least number : Nat) : Option Char :=
  if number.isValidChar ∧ least ≤ number then some (Char.ofNat number) else none

/-- The first character of a byte string and the bytes after it. -/
def firstChar? : List UInt8 → Option (Char × List UInt8)
  | [] => none
  | byte :: bytes => do
    let lead ← Lead.ofByte? byte
    let (number, rest) ← continuations? lead.following lead.payload bytes
    let char ← scalar? lead.least number
    some (char, rest)

/-- A character takes up at least one byte. -/
theorem firstChar?_shorter {bytes rest : List UInt8} {char : Char}
    (read : firstChar? bytes = some (char, rest)) : rest.length < bytes.length := by
  cases bytes with
  | nil => cases read
  | cons byte bytes =>
    simp only [firstChar?, Option.bind_eq_bind, Option.bind_eq_some_iff, Option.some.injEq,
      Prod.mk.injEq, Prod.exists] at read
    -- the first byte is gone, and so are the continuation bytes
    obtain ⟨_, _, _, _, following, _, _, _, rfl⟩ := read
    exact Nat.lt_succ_of_le (continuations?_length following)

/-- Reads on after `position` bytes, which held the characters `done`, latest first. -/
def decodeFrom (position : Nat) (done : List Char) (bytes : List UInt8) :
    Except Nat (List Char) :=
  if bytes.isEmpty then .ok done.reverse
  else
    match read : firstChar? bytes with
    | none => .error position
    | some (char, rest) =>
      have := firstChar?_shorter read
      decodeFrom (position + char.utf8Size) (char :: done) rest
termination_by bytes.length

/-- The characters of a byte string, or the length of its longest well-formed beginning. -/
def decode (bytes : List UInt8) : Except Nat (List Char) :=
  decodeFrom 0 [] bytes

/-- The bytes of a text in UTF-8. -/
def encode (text : List Char) : List UInt8 :=
  text.flatMap String.utf8EncodeChar

/-- The bytes of a text are those of its first character and those of what follows it. -/
theorem encode_cons (c : Char) (text : List Char) :
    encode (c :: text) = String.utf8EncodeChar c ++ encode text :=
  List.flatMap_cons

/-- The bytes of a text are those of its two parts. -/
theorem encode_append (first second : List Char) :
    encode (first ++ second) = encode first ++ encode second :=
  List.flatMap_append

end SearchKeys.Text
