/-
# Templates that say nothing

A template is written in comments throughout, whatever the ids of the registered modes are. As long
as these can be written in comments, it is a configuration file that says nothing.

## Main definitions

* `Template.Commentable`: a text of which every line can be written in a comment.
* `Template.LeavesPlace`: a text with one place for the registered modes.

## Main results

* `Template.lines_commented`: every line of a text that is commented out is empty or a comment.
* `Template.ofText_commented`: such a text says nothing when it is commented out.
* `Template.ofText_forDirectory`, `Template.ofText_forHome`: neither template says anything.
* `Template.LeavesPlace.rendered_eq`: the modes are put into their place as they are.
* `Template.template_inert`: what holds of the templates of every registry.
-/

import SearchKeys.Proofs.Settings.SilentFile
import SearchKeys.Proofs.Text.Joined
import SearchKeys.Proofs.Text.Lines
import SearchKeys.Proofs.Toml.Comments
import SearchKeys.Settings.Template

namespace SearchKeys.Template

open Toml

variable {line : List Char} {text first second : String} {registry : Registry}

/-! ### Texts that are commented out -/

/-- Every line of the text can be written in a comment. -/
def Commentable (text : String) : Prop :=
  ∀ c ∈ text.toList, isPlain c ∨ c = '\n'

instance : DecidablePred Commentable := fun text =>
  decidable_of_iff (text.toList.all fun c => isPlain c || c == '\n') (by simp [Commentable])

theorem commentable_ofList {chars : List Char} (each : chars.all fun c => isPlain c || c == '\n') :
    Commentable (String.ofList chars) := by
  simpa [Commentable] using each

/-- Only controls of the ASCII range cannot be written in a comment. -/
theorem commentable_of_noControls (noControls : ∀ c ∈ text.toList,
    c.toNat < 0x20 ∨ c.toNat = 0x7F → c = '\t' ∨ c = '\n') : Commentable text := by
  intro c inside
  by_cases control : c.toNat < 0x20 ∨ c.toNat = 0x7F
  · rcases noControls c inside control with rfl | rfl
    · exact .inl (by decide)
    · exact .inr rfl
  · rw [not_or, not_lt] at control
    exact .inl (by simp [isPlain, control])

theorem commentable_append :
    Commentable (first ++ second) ↔ Commentable first ∧ Commentable second := by
  simp only [Commentable, String.toList_append, List.forall_mem_append]

/-- A line that is commented out says nothing. -/
theorem remark_commentedLine (plain : ∀ c ∈ line, isPlain c) : Remark (commentedLine line) := by
  unfold commentedLine
  split_ifs with asItIs
  · cases line with
    | nil => exact .empty
    | cons c rest =>
      obtain rfl : c = '#' := by simpa using asItIs
      exact .comment (List.forall_mem_cons.1 plain).2
  · exact .comment (List.forall_mem_cons.2 ⟨by decide, plain⟩)

theorem commentedLine_eq_nil_or (line : List Char) :
    commentedLine line = [] ∨ (commentedLine line).head? = some '#' := by
  unfold commentedLine
  split_ifs with asItIs
  · simpa using asItIs
  · exact .inr rfl

theorem feed_notMem_commentedLine (noFeed : '\n' ∉ line) : '\n' ∉ commentedLine line := by
  unfold commentedLine
  split_ifs
  · exact noFeed
  · simp [noFeed]

theorem toList_commented (text : String) :
    (commented text).toList = joinLines ((Text.lines text.toList).map commentedLine) := by
  rw [commented, String.toList_ofList, joinLines, List.flatMap_map]

/-- Every line of a text that is commented out is empty or a comment. -/
theorem lines_commented (member : line ∈ Text.lines (commented text).toList) :
    line = [] ∨ line.head? = some '#' := by
  rw [toList_commented] at member
  have noFeed : ∀ line ∈ (Text.lines text.toList).map commentedLine, '\n' ∉ line := by
    intro line member
    obtain ⟨line, among, rfl⟩ := List.mem_map.1 member
    exact feed_notMem_commentedLine (Text.feed_notMem_lines among)
  obtain ⟨whole, among, front⟩ := Text.exists_prefix_of_mem_lines noFeed member
  obtain ⟨original, -, rfl⟩ := List.mem_map.1 among
  -- what is in front of a carriage return is the beginning of a comment
  cases line with
  | nil => exact .inl rfl
  | cons c rest =>
    obtain ⟨behind, whole_eq⟩ := front
    rcases commentedLine_eq_nil_or original with empty | comment
    · simp [empty] at whole_eq
    · rw [← whole_eq] at comment
      exact .inr comment

/-- A text that is commented out says nothing as a configuration file. -/
theorem ofText_commented (commentable : Commentable text) :
    SettingsFile.ofText (commented text).toList = .ok {} := by
  have remarks : ∀ line ∈ (Text.lines text.toList).map commentedLine, Remark line := by
    intro line member
    obtain ⟨line, among, rfl⟩ := List.mem_map.1 member
    refine remark_commentedLine fun c inside => ?_
    rcases commentable c (Text.mem_of_mem_lines among inside) with plain | rfl
    · exact plain
    · exact absurd inside (Text.feed_notMem_lines among)
  rw [SettingsFile.ofText, toList_commented, document?_of_remarks remarks]
  rfl

/-! ### The templates -/

theorem commentable_intercalate {separator : String} {texts : List String}
    (between : Commentable separator) (each : ∀ text ∈ texts, Commentable text) :
    Commentable (separator.intercalate texts) := by
  cases texts with
  | nil => simp [Commentable]
  | cons first others =>
    obtain ⟨here, later⟩ := List.forall_mem_cons.1 each
    intro c inside
    rw [toList_intercalate_cons, List.mem_append, List.mem_flatMap] at inside
    rcases inside with inFirst | ⟨text, member, inText⟩
    · exact here c inFirst
    · rcases List.mem_append.1 inText with inSeparator | inside
      · exact between c inSeparator
      · exact later text member c inside

theorem commentable_enumeration {texts : List String}
    (each : ∀ text ∈ texts, Commentable text) : Commentable (enumeration texts) := by
  unfold enumeration
  split
  · decide
  · next only ends _ => exact each only (List.mem_of_getLast? ends)
  · next last _ ends _ =>
    have front : ∀ text ∈ texts.dropLast, Commentable text :=
      fun text member => each text (List.dropLast_subset texts member)
    rw [commentable_append, commentable_append]
    exact ⟨⟨commentable_intercalate (by decide) front, by decide⟩,
      each _ (List.mem_of_getLast? ends)⟩

theorem commentable_directoryText : Commentable directoryText := by
  -- part by part, as the whole text is too long to be looked at at once
  unfold directoryText parseSection formatSection placeholder
  simp only [commentable_append, -String.reduceAppend]
  and_intros <;> exact commentable_ofList (by decide)

theorem commentable_homeText : Commentable homeText := by
  unfold homeText parseSection formatSection placeholder
  simp only [commentable_append, -String.reduceAppend]
  and_intros <;> exact commentable_ofList (by decide)

section Ids

variable (ids : ∀ id ∈ registry.ids, Commentable id)
include ids

/-- A template says nothing if its text and the ids that are put into it can be commented out. -/
theorem ofText_rendered (commentable : Commentable text) :
    SettingsFile.ofText (rendered text registry).toList = .ok {} := by
  refine ofText_commented fun c inside => ?_
  rw [String.toList_ofList] at inside
  -- no matter where the modes are put, each character is one of theirs or one of the text
  rcases Text.mem_of_mem_replace inside with inText | inModes
  · exact commentable c inText
  · exact commentable_enumeration ids c inModes

/-- The template for a directory says nothing. -/
theorem ofText_forDirectory : SettingsFile.ofText (forDirectory registry).toList = .ok {} :=
  ofText_rendered ids commentable_directoryText

/-- The template for the home directory says nothing. -/
theorem ofText_forHome : SettingsFile.ofText (forHome registry).toList = .ok {} :=
  ofText_rendered ids commentable_homeText

end Ids

/-! ### The place of the modes -/

/-- What stands for the modes does not begin in the text. -/
def Markless (text : String) : Prop :=
  '\x7b' ∉ text.toList

theorem markless_ofList {chars : List Char} (absent : chars.all (· != '\x7b')) :
    Markless (String.ofList chars) := by
  rw [Markless, String.toList_ofList]
  intro inside
  simpa using List.all_eq_true.1 absent _ inside

theorem markless_append : Markless (first ++ second) ↔ Markless first ∧ Markless second := by
  simp [Markless]

/-- The text leaves one place for the registered modes. -/
def LeavesPlace (text : String) : Prop :=
  ∃ before after, text = before ++ placeholder ++ after ∧ Markless before ∧ Markless after

namespace LeavesPlace

theorem of_placeholder : LeavesPlace placeholder :=
  ⟨"", "", by simp [Markless]⟩

variable (place : LeavesPlace text)
include place

theorem append (markless : Markless second) : LeavesPlace (text ++ second) := by
  obtain ⟨before, after, rfl, notBefore, notAfter⟩ := place
  exact ⟨before, after ++ second, by simp [String.append_assoc], notBefore,
    markless_append.2 ⟨notAfter, markless⟩⟩

theorem prepend (markless : Markless first) : LeavesPlace (first ++ text) := by
  obtain ⟨before, after, rfl, notBefore, notAfter⟩ := place
  exact ⟨first ++ before, after, by simp [String.append_assoc],
    markless_append.2 ⟨markless, notBefore⟩, notAfter⟩

/-- The modes are put into their place as they are. -/
theorem rendered_eq (registry : Registry) : ∃ before after,
    text = before ++ placeholder ++ after ∧
      rendered text registry = commented (before ++ enumeration registry.ids ++ after) := by
  obtain ⟨before, after, rfl, notBefore, notAfter⟩ := place
  refine ⟨before, after, rfl, ?_⟩
  have mark : placeholder.toList = '\x7b' :: "modes\x7d".toList := rfl
  have replaced : Text.replace placeholder.toList (enumeration registry.ids).toList
      (before ++ placeholder ++ after).toList =
        (before ++ enumeration registry.ids ++ after).toList := by
    simp only [String.toList_append, mark, Text.replace_once notBefore notAfter]
  rw [rendered, replaced, String.ofList_toList]

end LeavesPlace

theorem leavesPlace_parseSection : LeavesPlace parseSection := by
  unfold parseSection
  iterate 4 refine LeavesPlace.append ?_ (markless_ofList (by decide))
  refine LeavesPlace.of_placeholder.prepend (markless_append.2 ⟨?_, ?_⟩)
  all_goals exact markless_ofList (by decide)

theorem leavesPlace_directoryText : LeavesPlace directoryText := by
  unfold directoryText formatSection
  iterate 4 refine LeavesPlace.append ?_ ?_
  refine leavesPlace_parseSection.prepend ?_
  all_goals
    repeat rw [markless_append]
    and_intros
    all_goals exact markless_ofList (by decide)

theorem leavesPlace_homeText : LeavesPlace homeText := by
  unfold homeText formatSection
  iterate 2 refine LeavesPlace.append ?_ ?_
  refine leavesPlace_parseSection.prepend ?_
  all_goals
    repeat rw [markless_append]
    and_intros
    all_goals exact markless_ofList (by decide)

/-- Both templates have the registered modes in the place that their texts leave for them, and every
line of them is empty or a comment, for every registry. If no id contains a control character of
the ASCII range other than the tab and the line feed, the templates are configuration files without
faults and without any of the three fields. -/
theorem template_inert (registry : Registry) :
    ∀ entry ∈ [(directoryText, forDirectory registry), (homeText, forHome registry)],
      (∃ before after, entry.1 = before ++ placeholder ++ after ∧
        entry.2 = commented (before ++ enumeration registry.ids ++ after)) ∧
      (∀ line ∈ Text.lines entry.2.toList, line = [] ∨ line.head? = some '#') ∧
      ((∀ id ∈ registry.ids, ∀ c ∈ id.toList, c.toNat < 0x20 ∨ c.toNat = 0x7F →
          c = '\t' ∨ c = '\n') →
        ∃ file, SettingsFile.ofText entry.2.toList = .ok file ∧
          file.root = none ∧ file.parse = none ∧ file.output = none) := by
  have silent (noControls : ∀ id ∈ registry.ids, ∀ c ∈ id.toList,
      c.toNat < 0x20 ∨ c.toNat = 0x7F → c = '\t' ∨ c = '\n') :
      ∀ id ∈ registry.ids, Commentable id :=
    fun id member => commentable_of_noControls (noControls id member)
  intro entry member
  rcases List.mem_pair.1 member with rfl | rfl
  · exact ⟨leavesPlace_directoryText.rendered_eq registry, fun _ => lines_commented,
      fun noControls => ⟨{}, ofText_forDirectory (silent noControls), rfl, rfl, rfl⟩⟩
  · exact ⟨leavesPlace_homeText.rendered_eq registry, fun _ => lines_commented,
      fun noControls => ⟨{}, ofText_forHome (silent noControls), rfl, rfl, rfl⟩⟩

/-- Ids that look like settings do not become settings, and neither does what stands for the modes
in the text of a template. -/
theorem template_inert_setting :
    let registry := Registry.empty |>.register placeholder Mode.phrase
      |>.register "a\n[parse]\nmode = 1\n#" Mode.terms
    enumeration registry.ids = "a\n[parse]\nmode = 1\n# or \x7bmodes\x7d" ∧
      (∃ before after, homeText = before ++ placeholder ++ after ∧
        forHome registry = commented (before ++ enumeration registry.ids ++ after)) ∧
      (∀ line ∈ Text.lines (forHome registry).toList, line = [] ∨ line.head? = some '#') ∧
      ∃ file, SettingsFile.ofText (forHome registry).toList = .ok file ∧
        file.root = none ∧ file.parse = none ∧ file.output = none := by
  intro registry
  obtain ⟨filled, comments, silent⟩ :=
    template_inert registry (homeText, forHome registry) (.tail _ (.head _))
  have ids : registry.ids = ["a\n[parse]\nmode = 1\n#", placeholder] := by cbv
  refine ⟨by rw [ids]; decide, filled, comments, silent ?_⟩
  rw [ids]
  simp [placeholder]

theorem commentable_standard : ∀ id ∈ Registry.standard.ids, Commentable id := by
  decide

end SearchKeys.Template
