/-
# Queries told by their JSON

The JSON of a query determines it, whatever its shape is and whatever its keys contain. The JSON
with one part per line is the same but for the blanks between its parts.

## Main definitions

* `Json.readChar?`: the character that the text of a string begins with.
* `Json.Place`, `Json.compacted`: where a reader of JSON stands, and JSON without the blanks that
  stand outside of strings.
* `Json.Compacts`: a text from outside of strings to outside of strings, and what is left of it.
* `Node.Told`: a node is told by any text that begins with its JSON.

## Main results

* `Json.readChar?_escapedChar`: a written character is read back.
* `Node.told`: a node is told by any text that begins with its JSON.
* `Node.compacts_prettyJson`: one part per line or not, the JSON is the same.
* `Group.json_injective_and_compacted_prettyJson`: both for queries.
-/

import SearchKeys.Proofs.Query.Tree
import SearchKeys.Proofs.Text.Joined
import SearchKeys.Query.Json
import SearchKeys.Toml.Digits

namespace SearchKeys

namespace Json

/-! ### Reading strings -/

/-- The character that a short escape stands for. -/
def unescaped : Char → Char
  | 'b' => '\x08'
  | 'f' => '\x0c'
  | 'n' => '\n'
  | 'r' => '\r'
  | 't' => '\t'
  | c => c

/-- The first character that a text inside of a string stands for, and the text behind it. There is
none where the string ends. -/
def readChar? : List Char → Option (Char × List Char)
  | '\\' :: 'u' :: '0' :: '0' :: high :: low :: rest =>
    some (Char.ofNat (Toml.valueOf 16 [high, low]), rest)
  | '\\' :: letter :: rest => some (unescaped letter, rest)
  | '"' :: _ | [] => none
  | c :: rest => some (c, rest)

/-- A written character is read back. -/
theorem readChar?_escapedChar (c : Char) (rest : List Char) :
    readChar? (escapedChar c ++ rest) = some (c, rest) := by
  have twoDigits_spec : ∀ number < 0x20, Toml.valueOf 16 (twoDigits number) = number := by decide
  unfold escapedChar
  split_ifs with quote backslash _ _ _ _ _ control
  · rw [quote]; rfl
  · rw [backslash]; rfl
  all_goals try (subst c; rfl)
  · have value := twoDigits_spec c.toNat control
    simp only [twoDigits] at value
    simp [readChar?, twoDigits, value]
  · simp [readChar?, backslash]

/-- What a string stands for is told by its text up to the quote that ends it. -/
theorem text_append_inj {first second s t : List Char}
    (same : first.flatMap escapedChar ++ '"' :: s = second.flatMap escapedChar ++ '"' :: t) :
    first = second ∧ s = t :=
  flatMap_append_inj readChar?_escapedChar (fun _ => rfl) same

theorem toList_string (text : String) :
    (string text).toList = '"' :: (text.toList.flatMap escapedChar ++ ['"']) := by
  rw [string, String.toList_ofList, List.cons_append]

/-- A string is told by any text that begins with it. -/
theorem string_append_inj {first second : String} {s t : List Char}
    (same : (string first).toList ++ s = (string second).toList ++ t) :
    first = second ∧ s = t := by
  simp only [toList_string, List.cons_append, List.append_assoc, List.nil_append,
    List.cons.injEq, true_and] at same
  exact (text_append_inj same).imp_left String.toList_injective

/-- A truth value is told by any text that begins with it. -/
theorem bool_append_inj {first second : Bool} {s t : List Char}
    (same : (bool first).toList ++ s = (bool second).toList ++ t) : first = second ∧ s = t := by
  have truth : (bool true).toList = ['t', 'r', 'u', 'e'] := rfl
  have falsehood : (bool false).toList = ['f', 'a', 'l', 's', 'e'] := rfl
  cases first <;> cases second <;> simp_all

end Json

theorem Conjunction.keyword_injective : Function.Injective Conjunction.keyword := by
  intro first second same
  cases first <;> cases second <;> first | rfl | exact absurd same (by decide)

namespace Node

variable {conjunction : Conjunction} {negated : Bool} {children : List Node}

/-! ### Reading nodes -/

theorem toList_json_keys (text : String) : (keys text).json.toList = (Json.string text).toList := by
  rw [json]

theorem toList_json_group :
    (group conjunction negated children).json.toList =
      '\x7b' :: ("\"conjunction\":".toList ++ ((Json.string conjunction.keyword).toList ++
        (",\"negation\":".toList ++ ((Json.bool negated).toList ++
          (",\"children\":[".toList ++ ((",".intercalate (children.map json)).toList ++
            [']', '\x7d'])))))) := by
  rw [json]
  simp only [String.toList_append, List.append_assoc]
  rfl

/-- The JSON of a node begins with a quote or a brace. -/
theorem head?_json (node : Node) :
    node.json.toList.head? = some '"' ∨ node.json.toList.head? = some '\x7b' := by
  cases node with
  | keys text => exact .inl (by rw [toList_json_keys, Json.toList_string]; rfl)
  | group => exact .inr (by rw [toList_json_group]; rfl)

/-- A node is told by any text that begins with its JSON. -/
def Told (node : Node) : Prop :=
  ∀ (other : Node) (s t : List Char),
    node.json.toList ++ s = other.json.toList ++ t → node = other ∧ s = t

/-- The nodes behind a comma are told by a text that goes on with a bracket. -/
theorem tail_append_inj {first second : List Node} {s t : List Char}
    (told : ∀ node ∈ first, node.Told)
    (same : first.flatMap (fun node => ',' :: node.json.toList) ++ ']' :: s =
      second.flatMap (fun node => ',' :: node.json.toList) ++ ']' :: t) :
    first = second ∧ s = t := by
  induction first generalizing second with
  | nil =>
    cases second with
    | nil => simpa using same
    | cons => simp at same
  | cons node first ih =>
    obtain ⟨here, later⟩ := List.forall_mem_cons.1 told
    cases second with
    | nil => simp at same
    | cons other second =>
      simp only [List.flatMap_cons, List.cons_append, List.append_assoc, List.cons.injEq,
        true_and] at same
      obtain ⟨rfl, rest⟩ := here _ _ _ same
      obtain ⟨rfl, sameRest⟩ := ih later rest
      exact ⟨rfl, sameRest⟩

theorem toList_members (first : Node) (others : List Node) :
    (",".intercalate ((first :: others).map json)).toList =
      first.json.toList ++ others.flatMap fun node => ',' :: node.json.toList := by
  rw [List.map_cons, toList_intercalate_cons, List.flatMap_map]
  rfl

/-- A list of nodes is told by a text that goes on with a bracket. -/
theorem members_append_inj {first second : List Node} {s t : List Char}
    (told : ∀ node ∈ first, node.Told)
    (same : (",".intercalate (first.map json)).toList ++ ']' :: s =
      (",".intercalate (second.map json)).toList ++ ']' :: t) :
    first = second ∧ s = t := by
  have notBracket (node : Node) (rest rest' : List Char) :
      node.json.toList ++ rest ≠ ']' :: rest' := by
    rcases node.head?_json with head | head <;>
      · obtain ⟨others, parts⟩ := List.head?_eq_some_iff.1 head
        simp [parts]
  cases first with
  | nil =>
    cases second with
    | nil => simpa using same
    | cons other second =>
      rw [toList_members, List.append_assoc] at same
      exact absurd same.symm (notBracket other _ s)
  | cons node first =>
    cases second with
    | nil =>
      rw [toList_members, List.append_assoc] at same
      exact absurd same (notBracket node _ t)
    | cons other second =>
      obtain ⟨here, later⟩ := List.forall_mem_cons.1 told
      rw [toList_members, toList_members, List.append_assoc, List.append_assoc] at same
      obtain ⟨rfl, rest⟩ := here _ _ _ same
      obtain ⟨rfl, sameRest⟩ := tail_append_inj later rest
      exact ⟨rfl, sameRest⟩

/-- Every node is told by any text that begins with its JSON. -/
theorem told (node : Node) : node.Told := by
  induction node using ind with
  | keys text =>
    intro other s t same
    cases other with
    | keys text' =>
      rw [toList_json_keys, toList_json_keys] at same
      obtain ⟨rfl, rest⟩ := Json.string_append_inj same
      exact ⟨rfl, rest⟩
    | group => simp [toList_json_keys, Json.toList_string, toList_json_group] at same
  | group conjunction negated children ih =>
    intro other s t same
    cases other with
    | keys text => simp [toList_json_keys, Json.toList_string, toList_json_group] at same
    | group conjunction' negated' children' =>
      simp only [toList_json_group, List.append_assoc, List.cons_append, List.nil_append,
        List.cons.injEq, true_and, List.append_cancel_left_eq] at same
      -- the fields are read one after the other, each up to where the next one begins
      obtain ⟨sameKeyword, behindKeyword⟩ := Json.string_append_inj same
      obtain ⟨rfl, behindTruth⟩ := Json.bool_append_inj (List.append_cancel_left behindKeyword)
      obtain ⟨rfl, behindMembers⟩ := members_append_inj ih (List.append_cancel_left behindTruth)
      obtain rfl := Conjunction.keyword_injective sameKeyword
      exact ⟨rfl, (List.cons.inj behindMembers).2⟩

end Node

namespace Json

/-! ### Blanks between the parts -/

/-- The blanks that may stand between the parts of JSON. -/
def isBlank (c : Char) : Bool :=
  c == ' ' || c == '\t' || c == '\n' || c == '\r'

/-- Where a reader of JSON stands. -/
inductive Place
  /-- Outside of all strings. -/
  | between
  /-- In a string. -/
  | inside
  /-- In a string, behind the backslash of an escape. -/
  | escaped
  deriving DecidableEq

/-- Where the reader stands behind a character. -/
def Place.next : Place → Char → Place
  | between, c => if c = '"' then inside else between
  | inside, c => if c = '"' then between else if c = '\\' then escaped else inside
  | escaped, _ => inside

/-- What a text is without the blanks outside of strings, read from a place on. -/
def compactedFrom : Place → List Char → List Char
  | _, [] => []
  | place, c :: rest =>
    if place = .between ∧ isBlank c then compactedFrom place rest
    else c :: compactedFrom (place.next c) rest

/-- JSON without the blanks that stand outside of strings. -/
def compacted (text : List Char) : List Char :=
  compactedFrom .between text

theorem compactedFrom_append (place : Place) (first second : List Char) :
    compactedFrom place (first ++ second) =
      compactedFrom place first ++ compactedFrom (first.foldl Place.next place) second := by
  induction first generalizing place with
  | nil => rfl
  | cons c first ih =>
    simp only [List.cons_append, compactedFrom, List.foldl_cons, ih]
    split_ifs with blank
    · -- a blank outside of strings leaves the reader there
      obtain ⟨rfl, isBlank⟩ := blank
      have notQuote : c ≠ '"' := by rintro rfl; exact absurd isBlank (by decide)
      rw [Place.next, if_neg notQuote]
    · rfl

/-- A text from one place outside of strings to another, and what it is without blanks there. -/
structure Compacts (text left : List Char) : Prop where
  left_eq : compacted text = left
  ends : text.foldl Place.next .between = .between

namespace Compacts

variable {first second text left left' : List Char}

theorem append (compacts : Compacts first left) (compacts' : Compacts second left') :
    Compacts (first ++ second) (left ++ left') where
  left_eq := by
    rw [compacted, compactedFrom_append, compacts.ends]
    exact congrArg₂ (· ++ ·) compacts.left_eq compacts'.left_eq
  ends := by rw [List.foldl_append, compacts.ends, compacts'.ends]

theorem nil : Compacts [] [] := ⟨rfl, rfl⟩

theorem flatMap {α : Type} {items : List α} {whole compact : α → List Char}
    (compacts : ∀ item ∈ items, Compacts (whole item) (compact item)) :
    Compacts (items.flatMap whole) (items.flatMap compact) := by
  induction items with
  | nil => exact nil
  | cons item items ih =>
    obtain ⟨here, later⟩ := List.forall_mem_cons.1 compacts
    exact here.append (ih later)

theorem blank (blank : ∀ c ∈ text, isBlank c) : Compacts text [] := by
  induction text with
  | nil => exact nil
  | cons c text ih =>
    obtain ⟨here, later⟩ := List.forall_mem_cons.1 blank
    have single : Compacts [c] [] := by
      have notQuote : c ≠ '"' := by rintro rfl; exact absurd here (by decide)
      exact ⟨by simp [compacted, compactedFrom, here], by simp [Place.next, notQuote]⟩
    exact single.append (ih later)

end Compacts

/-- A written character leaves the reader in the string, and nothing is taken away from it. -/
theorem compactedFrom_escapedChar (c : Char) :
    compactedFrom .inside (escapedChar c) = escapedChar c ∧
      (escapedChar c).foldl Place.next .inside = .inside := by
  have numbered : ∀ number < 0x20,
      let written := ['\\', 'u', '0', '0'] ++ twoDigits number
      compactedFrom .inside written = written ∧ written.foldl Place.next .inside = .inside := by
    decide
  unfold escapedChar
  split_ifs with quote backslash _ _ _ _ _ control
  all_goals try decide
  · exact numbered c.toNat control
  · simp [compactedFrom, Place.next, quote, backslash]

theorem compactedFrom_text (text : List Char) :
    compactedFrom .inside (text.flatMap escapedChar) = text.flatMap escapedChar ∧
      (text.flatMap escapedChar).foldl Place.next .inside = .inside := by
  induction text with
  | nil => exact ⟨rfl, rfl⟩
  | cons c text ih =>
    obtain ⟨kept, stays⟩ := compactedFrom_escapedChar c
    rw [List.flatMap_cons, compactedFrom_append, List.foldl_append, kept, stays, ih.1, ih.2]
    exact ⟨rfl, rfl⟩

/-- Nothing is taken away from a string. -/
theorem compacts_string (text : String) :
    Compacts (string text).toList (string text).toList := by
  obtain ⟨kept, stays⟩ := compactedFrom_text text.toList
  rw [toList_string]
  constructor
  · change '"' :: compactedFrom .inside _ = _
    rw [compactedFrom_append, kept, stays]
    rfl
  · change List.foldl Place.next .inside _ = _
    rw [List.foldl_append, stays]
    rfl

theorem compacts_bool (value : Bool) : Compacts (bool value).toList (bool value).toList := by
  cases value <;> exact ⟨by decide, by decide⟩

/-- A line end and an indentation are blank. -/
theorem compacts_newLine (depth : Nat) : Compacts (newLine depth).toList [] := by
  have feed : "\n".toList = ['\n'] := rfl
  have indentation : "  ".toList = [' ', ' '] := rfl
  refine Compacts.blank fun c member => ?_
  simp only [newLine, String.toList_append, String.toList_join, feed, List.mem_append,
    List.mem_flatMap, List.mem_replicate, List.mem_singleton] at member
  rcases member with rfl | ⟨_, ⟨_, rfl⟩, member⟩
  · rfl
  · rw [indentation] at member
    rcases List.mem_pair.1 member with rfl | rfl <;> rfl

end Json

namespace Node

open Json

/-- The members of a list, one per line, are the same but for the blanks between them. -/
theorem compacts_members {children : List Node} (depth : Nat)
    (compacts : ∀ child ∈ children, Compacts (child.prettyJson depth).toList child.json.toList) :
    Compacts (("," ++ newLine depth).intercalate (children.map (prettyJson depth))).toList
      (",".intercalate (children.map json)).toList := by
  cases children with
  | nil => exact Compacts.nil
  | cons first others =>
    obtain ⟨here, later⟩ := List.forall_mem_cons.1 compacts
    have comma : Compacts ",".toList ",".toList := ⟨by decide, by decide⟩
    simp only [List.map_cons, toList_intercalate_cons, List.flatMap_map, String.toList_append]
    refine here.append (Compacts.flatMap fun child member => ?_)
    simpa using (comma.append (compacts_newLine depth)).append (later child member)

/-- One part per line, the JSON of a node is the same but for the blanks between the parts. -/
theorem compacts_prettyJson (node : Node) (depth : Nat) :
    Compacts (node.prettyJson depth).toList node.json.toList := by
  induction node using ind generalizing depth with
  | keys text =>
    rw [prettyJson, json]
    exact compacts_string text
  | group conjunction negated children ih =>
    have members : Compacts
        (if children.isEmpty then ""
          else newLine (depth + 2) ++
            ("," ++ newLine (depth + 2)).intercalate (children.map (prettyJson (depth + 2))) ++
            newLine (depth + 1)).toList
        (",".intercalate (children.map json)).toList := by
      split_ifs with empty
      · obtain rfl := List.isEmpty_iff.1 empty
        exact Compacts.nil
      · have inner := compacts_members (depth + 2) fun child member => ih child member (depth + 2)
        simp only [String.toList_append]
        simpa using ((compacts_newLine (depth + 2)).append inner).append
          (compacts_newLine (depth + 1))
    have line := compacts_newLine (depth + 1)
    have comma : Compacts ",".toList [','] := ⟨by decide, by decide⟩
    have conjunctionField : Compacts "\"conjunction\": ".toList "\"conjunction\":".toList :=
      ⟨by decide, by decide⟩
    have negationField : Compacts "\"negation\": ".toList "\"negation\":".toList :=
      ⟨by decide, by decide⟩
    have childrenField : Compacts "\"children\": [".toList "\"children\":[".toList :=
      ⟨by decide, by decide⟩
    have opening : Compacts "\x7b".toList ['\x7b'] := ⟨by decide, by decide⟩
    have closing : Compacts "]".toList [']'] := ⟨by decide, by decide⟩
    have closingBrace : Compacts "\x7d".toList ['\x7d'] := ⟨by decide, by decide⟩
    have fields := opening.append line
      |>.append conjunctionField |>.append (compacts_string conjunction.keyword)
      |>.append comma |>.append line
      |>.append negationField |>.append (compacts_bool negated) |>.append comma |>.append line
      |>.append childrenField |>.append members |>.append closing
      |>.append (compacts_newLine depth) |>.append closingBrace
    have behindKeyword : ",\"negation\":".toList = ',' :: "\"negation\":".toList := rfl
    have behindTruth : ",\"children\":[".toList = ',' :: "\"children\":[".toList := rfl
    rw [prettyJson]
    simp only [String.toList_append]
    simpa only [toList_json_group, behindKeyword, behindTruth, List.append_assoc,
      List.nil_append, List.cons_append] using fields

end Node

/-- A query is determined by its JSON, and the JSON that is shown is the same but for the blanks
between its parts. -/
theorem Group.json_injective_and_compacted_prettyJson :
    Function.Injective Group.json ∧
      ∀ query : Group, Json.compacted (Group.prettyJson? (some query)).toList =
        query.json.toList := by
  constructor
  · intro first second same
    have behind : first.node.json.toList ++ [] = second.node.json.toList ++ [] :=
      congrArg (·.toList ++ []) same
    exact Group.node_injective (first.node.told _ _ _ behind).1
  · intro query
    have feed : "\n".toList = ['\n'] := rfl
    have lineEnd : Json.Compacts ['\n'] [] := Json.Compacts.blank (by simp [Json.isBlank])
    have shown := (query.node.compacts_prettyJson 0).append lineEnd
    rw [prettyJson?, String.toList_append, feed, shown.left_eq, List.append_nil, json]

/-- A blank in a string stays, also behind an escaped quote. -/
example : Json.compacted " [\"\\\" \" ]\n".toList = "[\"\\\" \"]".toList := rfl

end SearchKeys
