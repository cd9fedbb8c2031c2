/-
# The directories above a path

Paths are compared by what they name. In these terms the directories above a path are its leading
parts: each has one component less than the one before, down to the root or, if the path does not
start at the root, down to the empty path. So no directory occurs twice on the way up, and neither
does a file of the same name in each of them.

## Main definitions

* `Path.leadingParts`: the leading parts of some components.

## Main results

* `Path.components_join`: what a name in a directory names.
* `Path.Proper.layout_ofLayout`: a path that is put together from pieces has these pieces.
* `Path.map_components_ancestors`: the directories above a path are its leading parts.
* `Path.pairwise_ancestors`: no directory occurs twice on the way up.
* `Path.ancestors_eq`: the way up goes from each directory to the one directly above it.
-/

import SearchKeys.Proofs.Files.Path
import SearchKeys.Proofs.Text.Blank
import Mathlib.Data.List.Infix
import Mathlib.Data.List.Nodup

namespace SearchKeys.Path

variable {start : Start} {piece text name : List Char} {pieces : List (List Char)}

/-! ### Pieces that lead somewhere -/

/-- What the pieces that lead somewhere stand for. -/
def named (pieces : List (List Char)) : List Component :=
  (pieces.map .ofPiece).filter (· != .here)

theorem components_eq (path : Path) :
    path.components = path.layout.1.components ++ named path.layout.2 := rfl

theorem isSilent_iff : isSilent piece ↔ piece = [] ∨ piece = ['.'] := by
  simp [isSilent]

theorem ofPiece_eq_here_iff : Component.ofPiece piece = .here ↔ isSilent piece := by
  unfold Component.ofPiece
  split_ifs <;> simp_all

theorem named_append (front pieces : List (List Char)) :
    named (front ++ pieces) = named front ++ named pieces := by
  simp [named]

theorem named_of_isSilent (silent : isSilent piece) : named [piece] = [] := by
  simp [named, ofPiece_eq_here_iff.2 silent]

theorem named_of_not_isSilent (leads : isSilent piece = false) :
    named [piece] = [.ofPiece piece] := by
  have notHere : Component.ofPiece piece ≠ .here := by
    rw [Ne, ofPiece_eq_here_iff, leads]
    simp
  simp [named, notHere]

/-! ### Layouts -/

theorem slash_notMem (member : piece ∈ text.splitOnP (· == '/')) : '/' ∉ piece := by
  intro inside
  simpa using (Text.of_mem_splitOnP member '/' inside).1

/-- A text is its pieces with slashes between them. -/
theorem intercalate_splitOnP (text : List Char) :
    ['/'].intercalate (text.splitOnP (· == '/')) = text := by
  rw [← List.splitOn_eq_splitOnP, List.intercalate_splitOn]

section Marks

variable {path : Path} {rest : List Char}

theorem layout_of_root (text : path.text.toList = '/' :: rest) :
    path.layout = (.root, rest.splitOnP (· == '/')) := by
  simp [layout, text]

theorem layout_of_point (text : path.text.toList = ['.']) : path.layout = (.here, []) := by
  simp [layout, text]

theorem layout_of_here (text : path.text.toList = '.' :: '/' :: rest) :
    path.layout = (.here, rest.splitOnP (· == '/')) := by
  simp [layout, text]

/-- The text is no mark of a path and begins with none. -/
structure Unmarked (text : List Char) : Prop where
  notRoot : ∀ rest, text ≠ '/' :: rest
  notPoint : text ≠ ['.']
  notHere : ∀ rest, text ≠ '.' :: '/' :: rest

theorem layout_of_unmarked (unmarked : Unmarked path.text.toList) :
    path.layout = (.unmarked, path.text.toList.splitOnP (· == '/')) := by
  unfold layout
  split
  · next rest isRoot => exact absurd isRoot (unmarked.notRoot rest)
  · next isPoint => exact absurd isPoint unmarked.notPoint
  · next rest isHere => exact absurd isHere (unmarked.notHere rest)
  · rfl

/-- A path begins with a slash, is a point, begins with a point and a slash, or has no mark. -/
theorem text_cases (path : Path) :
    (∃ rest, path.text.toList = '/' :: rest) ∨ path.text.toList = ['.'] ∨
      (∃ rest, path.text.toList = '.' :: '/' :: rest) ∨ Unmarked path.text.toList := by
  by_contra none
  simp only [not_or, not_exists] at none
  exact none.2.2.2 ⟨none.1, none.2.1, none.2.2.1⟩

/-- A text without a mark gets none from what is put behind it. -/
theorem Unmarked.append {text : List Char} (unmarked : Unmarked text) (notEmpty : text ≠ [])
    (rest : List Char) : Unmarked (text ++ rest) := by
  match text with
  | [] => exact absurd rfl notEmpty
  | [c] =>
    have notSlash : c ≠ '/' := fun same => unmarked.notRoot [] (by rw [same])
    have notPoint : c ≠ '.' := fun same => unmarked.notPoint (by rw [same])
    constructor <;> simp [notSlash, notPoint]
  | c :: d :: others =>
    have notRoot := unmarked.notRoot (d :: others)
    have notHere := unmarked.notHere others
    constructor <;> simp_all

/-- A text whose first piece leads somewhere has no mark. -/
theorem unmarked_append {first : List Char} (noSlash : '/' ∉ first)
    (leads : isSilent first = false) (rest : List Char) : Unmarked (first ++ rest) := by
  match first with
  | [] => simp [isSilent] at leads
  | [c] =>
    have notSlash : c ≠ '/' := by simpa [eq_comm] using noSlash
    have notPoint : c ≠ '.' := by simpa [isSilent] using leads
    constructor <;> simp [notSlash, notPoint]
  | c :: d :: others =>
    obtain ⟨notSlash, notSlash', -⟩ : c ≠ '/' ∧ d ≠ '/' ∧ '/' ∉ others := by
      simpa [eq_comm] using noSlash
    constructor <;> simp [notSlash, notSlash']

end Marks

/-- The pieces of a path with this start. Without a mark in front, the first piece leads somewhere
or is all there is of the path. -/
structure Proper (start : Start) (pieces : List (List Char)) : Prop where
  noSlash : ∀ piece ∈ pieces, '/' ∉ piece
  unmarked : start = .unmarked → ∀ first others, pieces = first :: others → isSilent first →
    others = []

theorem proper_layout (path : Path) : Proper path.layout.1 path.layout.2 := by
  rcases path.text_cases with ⟨rest, text⟩ | text | ⟨rest, text⟩ | unmarked
  · rw [layout_of_root text]
    exact ⟨fun _ => slash_notMem, by simp⟩
  · rw [layout_of_point text]
    exact ⟨by simp, by simp⟩
  · rw [layout_of_here text]
    exact ⟨fun _ => slash_notMem, by simp⟩
  · rw [layout_of_unmarked unmarked]
    refine ⟨fun _ => slash_notMem, fun _ first others parts silent => ?_⟩
    have whole := intercalate_splitOnP path.text.toList
    dsimp only at parts
    rw [parts] at whole
    cases others with
    | nil => rfl
    | cons second others =>
      -- with another piece behind it, a silent piece would be a mark
      rw [List.intercalate_cons_cons] at whole
      rcases isSilent_iff.1 silent with rfl | rfl
      · exact absurd whole.symm (unmarked.notRoot _)
      · exact absurd whole.symm (unmarked.notHere _)

/-- The pieces in front of a last one are pieces of a path as well. -/
theorem Proper.front (proper : Proper start (pieces ++ [piece])) : Proper start pieces where
  noSlash := fun other member => proper.noSlash other (by simp [member])
  unmarked := by
    rintro isUnmarked first others rfl silent
    simpa using proper.unmarked isUnmarked first (others ++ [piece]) rfl silent

/-- A path that is put together from its start and its pieces has this start and these pieces. -/
theorem Proper.layout_ofLayout (proper : Proper start (pieces ++ [piece]))
    (leads : isSilent piece = false) :
    (ofLayout start (pieces ++ [piece])).layout = (start, pieces ++ [piece]) := by
  have split : (['/'].intercalate (pieces ++ [piece])).splitOnP (· == '/') = pieces ++ [piece] := by
    rw [← List.splitOn_eq_splitOnP, List.splitOn_intercalate '/' proper.noSlash (by simp)]
  cases start with
  | root => simp [ofLayout, layout, split]
  | here => simp [ofLayout, layout, split]
  | unmarked =>
    obtain ⟨first, others, parts⟩ := List.exists_cons_of_ne_nil
      (List.append_ne_nil_of_right_ne_nil pieces (List.cons_ne_nil piece []))
    -- a silent piece would be the only one, but the last one leads somewhere
    have firstLeads : isSilent first = false := by
      by_contra silent
      rw [Bool.not_eq_false] at silent
      obtain rfl := proper.unmarked rfl first others parts silent
      have last : piece = first := by simpa using congrArg List.getLast? parts
      rw [last, silent] at leads
      cases leads
    have noSlash := proper.noSlash first (by simp [parts])
    obtain ⟨rest, text⟩ : ∃ rest, (ofLayout .unmarked (pieces ++ [piece])).text.toList =
        first ++ rest := by
      refine ⟨others.flatMap (['/'] ++ ·), ?_⟩
      simp only [ofLayout, String.toList_ofList, parts, intercalate_cons]
    have unmarked := unmarked_append noSlash firstLeads rest
    rw [← text] at unmarked
    rw [layout_of_unmarked unmarked]
    simp only [ofLayout, String.toList_ofList, split]

/-! ### A name in a directory -/

/-- What is put between the text of a directory and a name in it. -/
def separator (text : List Char) : List Char :=
  if text.isEmpty || text.getLast? == some '/' then [] else ['/']

theorem toList_join (directory : Path) (name : String) :
    (directory.join name).text.toList =
      directory.text.toList ++ (separator directory.text.toList ++ name.toList) := by
  simp only [join, separator, String.toList_append, List.append_assoc]
  split_ifs <;> rfl

/-- A slash in front of a text does not matter. -/
theorem separator_slash (rest : List Char) : separator ('/' :: rest) = separator rest := by
  cases rest <;> simp [separator]

section Join

variable (noSlash : '/' ∉ name) (leads : isSilent name = false)
include noSlash leads

/-- A name behind a text adds what it stands for to what the pieces of the text name. -/
theorem named_join (rest : List Char) :
    named ((rest ++ (separator rest ++ name)).splitOnP (· == '/')) =
      named (rest.splitOnP (· == '/')) ++ [.ofPiece name] := by
  have single : name.splitOnP (· == '/') = [name] :=
    List.splitOnP_eq_singleton fun c member => by
      simpa using ne_of_mem_of_not_mem member noSlash
  have behind (front : List Char) : named ((front ++ '/' :: name).splitOnP (· == '/')) =
      named (front.splitOnP (· == '/')) ++ [.ofPiece name] := by
    rw [List.splitOnP_append_cons _ _ rfl, single, named_append, named_of_not_isSilent leads]
  have silent : named [[]] = [] := named_of_isSilent rfl
  rcases List.eq_nil_or_concat rest with rfl | ⟨front, last, rfl⟩
  · simp [separator, single, silent, named_of_not_isSilent leads]
  · by_cases slash : last = '/'
    · -- the slash at the end separates the name from the text
      have ends : named ((front ++ '/' :: []).splitOnP (· == '/')) =
          named (front.splitOnP (· == '/')) := by
        rw [List.splitOnP_append_cons _ _ rfl, named_append, List.splitOnP_nil, silent,
          List.append_nil]
      simpa [separator, slash, ends] using behind front
    · simpa [separator, slash] using behind (front ++ [last])

end Join

/-- A name in a directory names what the directory does and one thing more. -/
theorem components_join (directory : Path) {name : String} (noSlash : '/' ∉ name.toList)
    (leads : isSilent name.toList = false) :
    (directory.join name).components = directory.components ++ [.ofPiece name.toList] := by
  have joined := toList_join directory name
  have named_join := named_join noSlash leads
  rw [components_eq, components_eq]
  rcases directory.text_cases with ⟨rest, text⟩ | text | ⟨rest, text⟩ | unmarked
  · rw [text, separator_slash, List.cons_append] at joined
    rw [layout_of_root joined, layout_of_root text, named_join, List.append_assoc]
  · have joined : (directory.join name).text.toList =
        '.' :: '/' :: ([] ++ (separator [] ++ name.toList)) := by
      rw [joined, text]
      rfl
    rw [layout_of_here joined, layout_of_point text, named_join]
    rfl
  · have joined : (directory.join name).text.toList =
        '.' :: '/' :: (rest ++ (separator rest ++ name.toList)) := by
      rw [joined, text, ← separator_slash rest]
      rfl
    rw [layout_of_here joined, layout_of_here text, named_join, List.append_assoc]
  · have unmarkedToo : Unmarked (directory.join name).text.toList := by
      rw [joined]
      rcases eq_or_ne directory.text.toList [] with empty | notEmpty
      · simpa [empty, separator] using unmarked_append noSlash leads []
      · exact unmarked.append notEmpty _
    rw [layout_of_unmarked unmarkedToo, layout_of_unmarked unmarked, joined, named_join,
      List.append_assoc]

/-! ### Leading parts -/

/-- The leading parts of some components, the longest first. Those of a path from the root go no
further up than the root. -/
def leadingParts (components : List Component) : List (List Component) :=
  if components.head? = some .root then components.inits.tail.reverse
  else components.inits.reverse

section LeadingParts

variable {components : List Component} {component : Component}

theorem inits_concat (components : List Component) (component : Component) :
    (components ++ [component]).inits = components.inits ++ [components ++ [component]] := by
  simp [List.inits_append]

/-- A component at the end makes one more leading part. -/
theorem leadingParts_concat (notRoot : component ≠ .root) (components : List Component) :
    leadingParts (components ++ [component]) =
      (components ++ [component]) :: leadingParts components := by
  cases components with
  | nil => simp [leadingParts, notRoot]
  | cons first others =>
    have notEmpty : (first :: others).inits ≠ [] := by simp
    unfold leadingParts
    rw [inits_concat, List.tail_append_of_ne_nil notEmpty, List.reverse_append,
      List.reverse_append]
    split_ifs <;> simp_all

/-- The longest leading part is the whole. -/
theorem head?_leadingParts (components : List Component) :
    (leadingParts components).head? = some components := by
  unfold leadingParts
  rcases List.eq_nil_or_concat components with rfl | ⟨front, last, rfl⟩
  · rfl
  · have notEmpty : front.inits ≠ [] := by cases front <;> simp
    rw [List.concat_eq_append, inits_concat, List.tail_append_of_ne_nil notEmpty]
    split_ifs <;> simp

theorem nodup_inits (components : List Component) : components.inits.Nodup := by
  induction components with
  | nil => simp
  | cons first others ih =>
    rw [List.inits_cons, List.nodup_cons]
    exact ⟨by simp, ih.map (List.cons_injective)⟩

theorem nodup_leadingParts (components : List Component) : (leadingParts components).Nodup := by
  unfold leadingParts
  split_ifs
  · exact List.nodup_reverse.2 (nodup_inits components).tail
  · exact List.nodup_reverse.2 (nodup_inits components)

end LeadingParts

/-! ### The way up -/

/-- The paths on the way up name the leading parts of what all pieces name. -/
theorem map_components_walk {reversed : List (List Char)}
    (proper : Proper start reversed.reverse) :
    (walk start reversed).map components =
      leadingParts (start.components ++ named reversed.reverse) := by
  induction reversed with
  | nil => cases start <;> rfl
  | cons piece rest ih =>
    rw [List.reverse_cons] at proper ⊢
    rw [walk, named_append, ← List.append_assoc]
    split
    · next silent => rw [ih proper.front, named_of_isSilent silent, List.append_nil]
    · next leads =>
      rw [Bool.not_eq_true] at leads
      rw [List.map_cons, ih proper.front, named_of_not_isSilent leads,
        leadingParts_concat (Component.ofPiece_ne_root piece), List.reverse_cons, components_eq,
        proper.layout_ofLayout leads, named_append, named_of_not_isSilent leads, List.append_assoc]

/-- The path and the directories above it name the leading parts of what the path names. -/
theorem map_components_ancestors (path : Path) :
    path.ancestors.map components = leadingParts path.components := by
  have proper := path.proper_layout
  rw [← List.reverse_reverse path.layout.2] at proper
  have parts := map_components_walk proper
  rw [List.reverse_reverse, ← components_eq] at parts
  -- the first path on the way up names the same as the path itself
  have first := head?_leadingParts path.components
  rw [ancestors, List.map_cons, List.map_tail, parts]
  cases named : leadingParts path.components with
  | nil => simp [named] at first
  | cons whole others => simpa [named, eq_comm] using first

/-- No directory occurs twice on the way up. -/
theorem pairwise_ancestors (path : Path) :
    path.ancestors.Pairwise fun first second => first.components ≠ second.components := by
  rw [← List.pairwise_map (f := components) (R := (· ≠ ·)), map_components_ancestors]
  exact nodup_leadingParts path.components

/-- What stands behind a path on the way up are the directories above it. -/
theorem ancestors_of_suffix {reversed : List (List Char)} {first : Path} {others : List Path}
    (proper : Proper start reversed.reverse) (suffix : first :: others <:+ walk start reversed) :
    first.ancestors = first :: others := by
  induction reversed with
  | nil =>
    cases start with
    | root | unmarked =>
      obtain ⟨rfl, rfl⟩ : first = _ ∧ others = [] := by
        simpa [walk, List.suffix_cons_iff] using suffix
      rfl
    | here =>
      rcases List.suffix_cons_iff.1 suffix with whole | suffix
      · obtain ⟨rfl, rfl⟩ := List.cons.inj whole
        rfl
      · obtain ⟨rfl, rfl⟩ : first = _ ∧ others = [] := by simpa [List.suffix_cons_iff] using suffix
        rfl
  | cons piece rest ih =>
    rw [List.reverse_cons] at proper
    rw [walk] at suffix
    split at suffix
    · exact ih proper.front suffix
    · next leads =>
      rw [Bool.not_eq_true] at leads
      rcases List.suffix_cons_iff.1 suffix with whole | suffix
      · obtain ⟨rfl, rfl⟩ := List.cons.inj whole
        rw [ancestors, List.reverse_cons, proper.layout_ofLayout leads]
        simp [walk, leads]
      · exact ih proper.front suffix

/-- The directories above a path are the one directly above it and those above this one. -/
theorem ancestors_eq (path : Path) :
    path.ancestors = path :: path.parent?.elim [] ancestors := by
  have proper := path.proper_layout
  rw [← List.reverse_reverse path.layout.2] at proper
  cases above : (walk path.layout.1 path.layout.2.reverse).tail with
  | nil => simp [parent?, ancestors, above]
  | cons parent others =>
    have suffix : parent :: others <:+ walk path.layout.1 path.layout.2.reverse := by
      rw [← above]
      exact List.tail_suffix _
    have parent_eq : path.parent? = some parent := by simp [parent?, ancestors, above]
    rw [parent_eq, Option.elim_some, ancestors_of_suffix proper suffix, ancestors, above]

end SearchKeys.Path
