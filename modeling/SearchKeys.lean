import SearchKeys.Binary64
import SearchKeys.CommandLine.Arguments
import SearchKeys.CommandLine.Command
import SearchKeys.CommandLine.Run
import SearchKeys.Dictionary
import SearchKeys.Files.Path
import SearchKeys.Files.Tree
import SearchKeys.KeysError
import SearchKeys.Main
import SearchKeys.Mode
import SearchKeys.Mode.Complex
import SearchKeys.Mode.Phrase
import SearchKeys.Mode.Registry
import SearchKeys.Mode.Terms
import SearchKeys.Proofs.Files.Tree
import SearchKeys.Proofs.Mode.Agreement
import SearchKeys.Proofs.Mode.Registry
import SearchKeys.Proofs.Mode.Reread
import SearchKeys.Proofs.Query.Blocks
import SearchKeys.Proofs.Query.Brackets
import SearchKeys.Proofs.Query.Built
import SearchKeys.Proofs.Query.Collapse
import SearchKeys.Proofs.Query.Default
import SearchKeys.Proofs.Query.Depth
import SearchKeys.Proofs.Query.Diagnosis
import SearchKeys.Proofs.Query.Draft
import SearchKeys.Proofs.Query.Expression
import SearchKeys.Proofs.Query.Grammar
import SearchKeys.Proofs.Query.Inline
import SearchKeys.Proofs.Query.Keys
import SearchKeys.Proofs.Query.Mend
import SearchKeys.Proofs.Query.Misread
import SearchKeys.Proofs.Query.Opaque
import SearchKeys.Proofs.Query.Parallel
import SearchKeys.Proofs.Query.Polarity
import SearchKeys.Proofs.Query.Proper
import SearchKeys.Proofs.Query.Prune
import SearchKeys.Proofs.Query.Reading
import SearchKeys.Proofs.Query.Record
import SearchKeys.Proofs.Query.Reread
import SearchKeys.Proofs.Query.Skipping
import SearchKeys.Proofs.Query.Step
import SearchKeys.Proofs.Query.Substitute
import SearchKeys.Proofs.Query.TooDeep
import SearchKeys.Proofs.Query.Tree
import SearchKeys.Proofs.Query.Weight
import SearchKeys.Proofs.Query.Written
import SearchKeys.Proofs.Settings.Conjunction
import SearchKeys.Proofs.Settings.Discovery
import SearchKeys.Proofs.Settings.Reread
import SearchKeys.Proofs.Text.Ascii
import SearchKeys.Proofs.Text.ByteOrder
import SearchKeys.Proofs.Text.Plain
import SearchKeys.Proofs.Text.Utf8
import SearchKeys.Proofs.Token.Cut
import SearchKeys.Proofs.Token.Phrase
import SearchKeys.Proofs.Token.Respelling
import SearchKeys.Proofs.Token.Scanned
import SearchKeys.Proofs.Token.Spelling
import SearchKeys.Proofs.Toml.Quoting
import SearchKeys.Proofs.Toml.Statements
import SearchKeys.Query.Conjunction
import SearchKeys.Query.Fold
import SearchKeys.Query.Json
import SearchKeys.Query.Node
import SearchKeys.Query.Outline
import SearchKeys.Query.Parser
import SearchKeys.Query.Text
import SearchKeys.Settings
import SearchKeys.Settings.Discovery
import SearchKeys.Settings.Fault
import SearchKeys.Settings.File
import SearchKeys.Settings.Merge
import SearchKeys.Settings.Template
import SearchKeys.Terminal.Listing
import SearchKeys.Terminal.Style
import SearchKeys.Terminal.Table
import SearchKeys.Text.Blank
import SearchKeys.Text.Hidden
import SearchKeys.Text.Lines
import SearchKeys.Text.Quoted
import SearchKeys.Text.Utf8
import SearchKeys.Token
import SearchKeys.Token.Segment
import SearchKeys.Toml.Digits
import SearchKeys.Toml.Document
import SearchKeys.Toml.Quoting
import SearchKeys.Toml.Quoting.Read
import SearchKeys.Toml.Quoting.Write
import SearchKeys.Toml.Scalar
import SearchKeys.Toml.Table
import SearchKeys.Toml.Value
import SearchKeys.Warning
import SearchKeys.Proofs.CommandLine.Check
import SearchKeys.Proofs.Query.Json
import SearchKeys.Proofs.Settings.SilentFile
import SearchKeys.Proofs.Text.Lines
import SearchKeys.Proofs.Toml.Comments
import SearchKeys.Proofs.CommandLine.Init
import SearchKeys.Proofs.CommandLine.Keys
import SearchKeys.Proofs.Mode.Quotes
import SearchKeys.Proofs.Files.Ancestors
import SearchKeys.Proofs.Mode.Written
import SearchKeys.Proofs.Settings.Found
import SearchKeys.Proofs.Settings.Precedence
import SearchKeys.Text.Replace
import SearchKeys.Proofs.Text.Quoted
import SearchKeys.Proofs.Text.WellFormed
import SearchKeys.Proofs.Query.Outline
import SearchKeys.Proofs.Terminal.Outline
import SearchKeys.Proofs.Terminal.Listing
import SearchKeys.Proofs.Mode.Readable
import SearchKeys.Proofs.Query.Descent
import SearchKeys.Proofs.Query.Calls
import SearchKeys.Proofs.Query.Frames
