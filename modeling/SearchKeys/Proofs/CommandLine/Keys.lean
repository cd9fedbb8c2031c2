/-
# Keys from several arguments

Keys can be given as several arguments, which are joined by spaces. Where every quotation of a text
is closed in it, reading on behind a blank changes nothing in front of the blank: no word goes on
there, and the first quote that closes a quotation stays the first one. So each argument is read
as if it were alone. A quote that is left open could be closed by a later argument.

## Main definitions

* `Warning.advance`: a warning about keys that stand further behind.

## Main results

* `Segment.Cuts.append`: texts without lone quotes are cut side by side.
* `Segment.unclosed_append`: the lone quotes of both parts are reported.
* `Token.scan_append_and_arguments`: arguments without lone quotes are read one by one.
-/

import SearchKeys.CommandLine.Run
import SearchKeys.Proofs.Text.Utf8
import SearchKeys.Proofs.Token.Unclosed

namespace SearchKeys

/-- The warning about keys that stand behind so many other bytes. -/
def Warning.advance (bytes : Nat) : Warning → Warning
  | unterminatedQuote byte => unterminatedQuote (bytes + byte)
  | warning => warning

namespace Segment

open Token (EndsWord)

variable {text rest behind : List Char} {segment : Segment} {segments segments' : List Segment}

/-- A first segment that is no lone quote stays the first one, unless a word goes on. -/
theorem Starts.append (starts : Starts text segment rest) (closed : segment ≠ .loneQuote)
    (ends : EndsWord behind) : Starts (text ++ behind) segment (rest ++ behind) := by
  cases starts with
  | blank isBlank => exact .blank isBlank
  | openParen => exact .openParen
  | closeParen => exact .closeParen
  | word notEmpty inside maximal =>
    rw [List.append_assoc]
    exact .word notEmpty inside (maximal.append ends)
  | quoted closes =>
    rw [List.cons_append, List.append_assoc, List.cons_append]
    exact .quoted closes
  | loneQuote => exact absurd rfl closed

/-- A text without lone quotes is cut as if nothing followed it, unless a word goes on. -/
theorem Cuts.append (cuts : Cuts text segments) (closed : .loneQuote ∉ segments)
    (ends : EndsWord behind) (cuts' : Cuts behind segments') :
    Cuts (text ++ behind) (segments ++ segments') := by
  induction cuts with
  | nil => exact cuts'
  | cons starts _ ih =>
    rw [List.mem_cons, not_or] at closed
    exact .cons (starts.append (Ne.symm closed.1) ends) (ih closed.2)

/-- The lone quotes of the second part are reported behind the bytes of the first part. -/
theorem unclosed_append (first second : List Segment) :
    unclosed (first ++ second) = unclosed first ++
      (unclosed second).map (Warning.advance (Text.byteLength (first.flatMap source))) := by
  induction second using List.reverseRecOn with
  | nil => simp [unclosed]
  | append_singleton second segment ih =>
    rw [← List.append_assoc, unclosed_concat, unclosed_concat, ih, List.map_append,
      List.append_assoc]
    split
    · simp [Warning.advance]
    · simp

/-- What reports no quote has no lone quotes and nothing to report. -/
theorem loneQuote_notMem_and_unclosed_eq_nil
    (closed : ∀ byte, .unterminatedQuote byte ∉ unclosed segments) :
    .loneQuote ∉ segments ∧ unclosed segments = [] := by
  constructor
  · intro member
    obtain ⟨earlier, behind, rfl⟩ := List.append_of_mem member
    exact closed _ (mem_unclosed_iff.2 ⟨earlier, behind, rfl, rfl⟩)
  · obtain ⟨bytes, reported, -⟩ := exists_unclosed_eq_map segments
    cases bytes with
    | nil => exact reported
    | cons byte bytes => exact absurd (by simp [reported]) (closed byte)

end Segment

namespace Token

variable {first second : List Char} {blank : Char}

/-- Behind a blank, keys are read as if they began there. -/
theorem scan_append_blank (isBlank : Text.isBlank blank)
    (closed : ∀ byte, .unterminatedQuote byte ∉ (scan first).2) (second : List Char) :
    scan (first ++ blank :: second) = ((scan first).1 ++ (scan second).1,
      (scan second).2.map (Warning.advance (Text.byteLength (first ++ [blank])))) := by
  simp only [scan, Segment.warnings_eq_unclosed] at closed ⊢
  obtain ⟨noLone, noWarning⟩ := Segment.loneQuote_notMem_and_unclosed_eq_nil closed
  -- the blank is a segment of its own, and a word in front of it ends there
  have ends : EndsWord (blank :: second) := endsWord_cons (by simp [Segment.isWordChar, isBlank])
  have cut : Segment.ofText (first ++ blank :: second) =
      Segment.ofText first ++ [Segment.blank blank] ++ Segment.ofText second := by
    rw [List.append_assoc, List.singleton_append]
    exact Segment.cuts_iff.1 ((Segment.cuts_ofText first).append noLone ends
      (.cons (Segment.Starts.blank isBlank) (Segment.cuts_ofText second)))
  have noToken : [Segment.blank blank].filterMap Segment.token? = [] := rfl
  have source : (Segment.ofText first ++ [Segment.blank blank]).flatMap Segment.source =
      first ++ [blank] := by
    rw [List.flatMap_append, Segment.flatMap_source_ofText]
    rfl
  rw [cut, List.filterMap_append, List.filterMap_append, noToken, List.append_nil,
    Segment.unclosed_append, Segment.unclosed_concat, noWarning, source]
  rfl

/-- Keys that are joined by spaces are read one by one. -/
theorem scan_intercalate (keys : List String)
    (closed : ∀ key ∈ keys, ∀ byte, .unterminatedQuote byte ∉ (scan key.toList).2) :
    scan (" ".intercalate keys).toList = (keys.flatMap fun key => (scan key.toList).1, []) := by
  induction keys with
  | nil => simp [scan, Segment.warnings]
  | cons key others ih =>
    obtain ⟨here, behind⟩ := List.forall_mem_cons.1 closed
    cases others with
    | nil =>
      simp only [scan, Segment.warnings_eq_unclosed] at here
      simp [scan, Segment.warnings_eq_unclosed,
        (Segment.loneQuote_notMem_and_unclosed_eq_nil here).2]
    | cons next others =>
      have joined : (" ".intercalate (key :: next :: others)).toList =
          key.toList ++ ' ' :: (" ".intercalate (next :: others)).toList := by
        simp
      rw [joined, scan_append_blank (by decide) here, ih behind]
      rfl

open CommandLine (Session) in
/-- Keys behind a blank are read as if they began there, if no quote in front of it is left open;
so arguments in which no quote is left open are read one by one. -/
theorem scan_append_and_arguments :
    (∀ (first second : List Char) (blank : Char), Text.isBlank blank →
      (∀ byte, .unterminatedQuote byte ∉ (scan first).2) →
      scan (first ++ blank :: second) = ((scan first).1 ++ (scan second).1,
        (scan second).2.map (Warning.advance (Text.byteLength (first ++ [blank]))))) ∧
    (∀ (session : Session) (keys : List String),
      (∀ key ∈ keys, ∀ byte, .unterminatedQuote byte ∉ (scan key.toList).2) →
      scanBytes (session.keys (.arguments keys)) =
        .ok (keys.flatMap fun key => (scan key.toList).1, [])) := by
  constructor
  · exact fun first second blank isBlank closed => scan_append_blank isBlank closed second
  · intro session keys closed
    rw [Session.keys, scanBytes, Text.decode_encode, ← scan_intercalate keys closed]

open CommandLine (Session) in
/-- A closed quotation with an escaped quote in it, in front of a blank of three bytes and a quote
that is left open, and the quotation as an argument beside another one. -/
theorem scan_append_and_arguments_quoted :
    let first := "é \"(\\\"\"".toList
    (∀ byte, .unterminatedQuote byte ∉ (scan first).2) ∧
      scan (first ++ '\u3000' :: "b\"".toList) =
        ([.term "é", .phrase "(\"", .term "b", lone], [.unterminatedQuote 12]) ∧
      scanBytes ((⟨Tree.empty, none, ⟨"/"⟩, []⟩ : Session).keys
        (.arguments [String.ofList first, "c"])) =
        .ok ([.term "é", .phrase "(\"", .term "c"], []) := by
  intro first
  have noWarning : (scan first).2 = [] := by decide +kernel
  have closed : ∀ byte, .unterminatedQuote byte ∉ (scan first).2 := by simp [noWarning]
  have isBlank : Text.isBlank '\u3000' := by decide
  have closedBoth : ∀ key ∈ [String.ofList first, "c"],
      ∀ byte, .unterminatedQuote byte ∉ (scan key.toList).2 := by
    have noWarning' : (scan ['c']).2 = [] := by decide +kernel
    simpa [noWarning'] using closed
  refine ⟨closed, ?_, ?_⟩
  · rw [scan_append_and_arguments.1 first "b\"".toList '\u3000' isBlank closed]
    decide +kernel
  · rw [scan_append_and_arguments.2 _ _ closedBoth]
    decide +kernel

end Token

end SearchKeys
