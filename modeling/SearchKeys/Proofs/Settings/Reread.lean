/-
# Printed settings

Settings that are printed as a configuration file and read back as the only file in effect are the
settings that were printed, whatever the name of the parse mode is.

## Main definitions

* `Settings.lines`, `Settings.entries`: the lines of the printed settings, and the table that they
  make.

## Main results

* `Settings.document?_text`: printed settings are a document with this table.
* `Fields.readEntries_cons`: entries are put into a record one after the other.
* `SettingsFile.ofText_text`: printed settings are read back, every field of them.
-/

import SearchKeys.Proofs.Toml.Statements
import SearchKeys.Settings.Merge

namespace SearchKeys

open Toml

namespace Settings

variable (settings : Settings)

/-- The lines of the settings as a configuration file. -/
def lines : List (List Char) :=
  ["[parse]".toList,
    "mode = ".toList ++ (quoted settings.parse.mode).toList,
    "conjunction = ".toList ++ (quoted settings.parse.conjunction.keyword).toList,
    [],
    "[output]".toList,
    "format = ".toList ++ (quoted settings.output.format.keyword).toList,
    "color = ".toList ++ (truthKeyword settings.output.color).toList]

/-- The statements on the lines of the settings. -/
def statements : List (Option Statement) :=
  [some (.header ⟨[], "parse"⟩),
    some (.pair ⟨[], "mode"⟩ (.string settings.parse.mode)),
    some (.pair ⟨[], "conjunction"⟩ (.string settings.parse.conjunction.keyword)),
    none,
    some (.header ⟨[], "output"⟩),
    some (.pair ⟨[], "format"⟩ (.string settings.output.format.keyword)),
    some (.pair ⟨[], "color"⟩ (.boolean settings.output.color))]

/-- The root table of the settings as a configuration file. -/
def entries : Entries :=
  [("output", .table .header
      [("color", .boolean settings.output.color),
        ("format", .string settings.output.format.keyword)]),
    ("parse", .table .header
      [("conjunction", .string settings.parse.conjunction.keyword),
        ("mode", .string settings.parse.mode)])]

/-- The printed settings are these lines. -/
theorem toList_text : settings.text.toList = joinLines settings.lines := by
  have mode : "[parse]\nmode = ".toList = "[parse]".toList ++ '\n' :: "mode = ".toList := by
    decide
  have conjunction : "\nconjunction = ".toList = '\n' :: "conjunction = ".toList := by decide
  have format : "\n\n[output]\nformat = ".toList =
      '\n' :: '\n' :: ("[output]".toList ++ '\n' :: "format = ".toList) := by
    decide
  have color : "\ncolor = ".toList = '\n' :: "color = ".toList := by decide
  have feed : "\n".toList = ['\n'] := by decide
  delta text
  simp only [String.toList_append, mode, conjunction, format, color, feed, joinLines, lines,
    List.flatMap_cons, List.flatMap_nil, List.append_assoc, List.cons_append, List.nil_append,
    List.append_nil]

theorem forall₂_line : List.Forall₂ Line settings.lines settings.statements := by
  refine .cons (line_header "parse".toList (by decide)) ?_
  refine .cons (line_string "mode".toList (by decide) _) ?_
  refine .cons (line_string "conjunction".toList (by decide) _) ?_
  refine .cons .empty ?_
  refine .cons (line_header "output".toList (by decide)) ?_
  refine .cons (line_string "format".toList (by decide) _) ?_
  exact .cons (line_truth "color".toList (by decide) _) .nil

/-- The printed settings are a document with these entries. -/
theorem document?_text : document? settings.text.toList = some settings.entries := by
  have read : statements? settings.text.toList = some settings.statements.reduceOption := by
    rw [toList_text]
    exact statements?_lines settings.forall₂_line (by simp [joinLines, lines])
  -- every name that is added to a table is less than the only one that may be there
  have outputFirst : "output" < "parse" := by decide
  have conjunctionFirst : "conjunction" < "mode" := by decide
  have colorFirst : "color" < "format" := by decide
  rw [document?, read]
  simp [statements, List.reduceOption, Progress.step?, Entries.openTable?, Entries.addPair?,
    Entries.within?, Dictionary.lookup_cons, Dictionary.insert.eq_1, Dictionary.insert_cons_self,
    Dictionary.insert_cons_of_lt outputFirst, Dictionary.insert_cons_of_lt conjunctionFirst,
    Dictionary.insert_cons_of_lt colorFirst, entries]

end Settings

/-- An entry with the name of a field is put into the record, and the others are read after it. -/
theorem Fields.readEntries_cons {α : Type} {fields : Fields α} {name : String} {value : Value}
    {start record : α} {put : Value → α → Except Fault α} (found : fields.lookup name = some put)
    (puts : put value start = .ok record) (entries : Entries) :
    fields.readEntries start ((name, value) :: entries) = fields.readEntries record entries := by
  rw [readEntries, List.foldlM_cons]
  simp only [found, puts]
  rfl

theorem ParseSection.read_fields (settings : ParseSettings) :
    fields.readEntries {} [("conjunction", .string settings.conjunction.keyword),
      ("mode", .string settings.mode)] =
        .ok ⟨some settings.mode, some settings.conjunction⟩ := by
  have chosen : readChoiceValue Conjunction.settingSpellings
      (.string settings.conjunction.keyword) = .ok settings.conjunction := by
    cases settings.conjunction <;> rfl
  rw [Fields.readEntries_cons rfl (by rw [chosen]; rfl), Fields.readEntries_cons rfl rfl]
  rfl

theorem OutputSection.read_fields (settings : OutputSettings) :
    fields.readEntries {} [("color", .boolean settings.color),
      ("format", .string settings.format.keyword)] =
        .ok ⟨some settings.format, some settings.color⟩ := by
  have chosen : readChoiceValue OutputFormat.choices (.string settings.format.keyword) =
      .ok settings.format := by
    cases settings.format <;> rfl
  rw [Fields.readEntries_cons rfl rfl, Fields.readEntries_cons rfl (by rw [chosen]; rfl)]
  rfl

/-- Settings that are printed are read back, all of their fields, and the printed file alone makes
the settings again. -/
theorem SettingsFile.ofText_text (settings : Settings) :
    ∃ file, SettingsFile.ofText settings.text.toList = .ok file ∧
      file = ⟨none, some ⟨some settings.parse.mode, some settings.parse.conjunction⟩,
        some ⟨some settings.output.format, some settings.output.color⟩⟩ ∧
      ∀ path, (Settings.merge [(path, file)]).parse = settings.parse ∧
        (Settings.merge [(path, file)]).output = settings.output := by
  refine ⟨_, ?_, rfl, fun path => ⟨rfl, rfl⟩⟩
  have read : SettingsFile.fields.readEntries {} settings.entries =
      .ok ⟨none, some ⟨some settings.parse.mode, some settings.parse.conjunction⟩,
        some ⟨some settings.output.format, some settings.output.color⟩⟩ := by
    rw [Settings.entries,
      Fields.readEntries_cons rfl (by rw [Fields.read, OutputSection.read_fields]; rfl),
      Fields.readEntries_cons rfl (by rw [Fields.read, ParseSection.read_fields]; rfl)]
    rfl
  rw [SettingsFile.ofText, settings.document?_text]
  simp only [read]

end SearchKeys
