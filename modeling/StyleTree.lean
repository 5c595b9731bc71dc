import StyleTree.Alias
import StyleTree.CommandLine.Reading
import StyleTree.CommandLine.Request
import StyleTree.CommandLine.Switch
import StyleTree.CommandLine.Usage
import StyleTree.Compile
import StyleTree.Config.Basic
import StyleTree.Config.Document
import StyleTree.Config.JsonFormat
import StyleTree.Config.TomlFormat
import StyleTree.Context
import StyleTree.Css.Block
import StyleTree.Css.Selectors
import StyleTree.Css.Stylesheet
import StyleTree.Css.Writer
import StyleTree.Entries
import StyleTree.Error
import StyleTree.Json.Fault
import StyleTree.Json.Numeral
import StyleTree.Json.Reader
import StyleTree.Json.Text
import StyleTree.Json.Value
import StyleTree.Main
import StyleTree.Number.Basic
import StyleTree.Number.Fixed
import StyleTree.Number.Layout
import StyleTree.Number.Shortest
import StyleTree.Storage.Directory
import StyleTree.Storage.Path
import StyleTree.Storage.Script
import StyleTree.Style.Basic
import StyleTree.Style.ClassName
import StyleTree.Style.Document
import StyleTree.Style.Expansion
import StyleTree.Style.Node
import StyleTree.Style.Written
import StyleTree.Table
import StyleTree.Task.Basic
import StyleTree.Task.Watch
import StyleTree.Task.Command
import StyleTree.Text.Blank
import StyleTree.Text.Displayed
import StyleTree.Text.Fingerprint
import StyleTree.Text.Hyphenation
import StyleTree.Text.Numeral
import StyleTree.Text.Pieces
import StyleTree.Text.Quoted
import StyleTree.Text.Utf16
import StyleTree.Token.Document
import StyleTree.Token.Path
import StyleTree.Token.Reference
import StyleTree.Token.Tree
import StyleTree.Toml.Document
import StyleTree.Toml.Number
import StyleTree.Toml.Text
import StyleTree.Toml.Value
import StyleTree.Proofs.Css.Writing
import StyleTree.Proofs.Css.Reading
import StyleTree.Proofs.Css.Faithful
import StyleTree.Proofs.Css.Scoping
import StyleTree.Proofs.Style.Expansion
import StyleTree.Proofs.Css.Headers
import StyleTree.Proofs.Style.Layering
import StyleTree.Proofs.Style.Leaves
import StyleTree.Proofs.Storage.Performing
import StyleTree.Proofs.Css.Strict
import StyleTree.Proofs.Json.Quoted
import StyleTree.Proofs.Json.Integer
import StyleTree.Proofs.Number.Text
import StyleTree.Proofs.Number.Integer
import StyleTree.Proofs.Number.Digits
import StyleTree.Proofs.Style.Spelling
import StyleTree.Proofs.Style.Canonical
import StyleTree.Proofs.Style.Reading
import StyleTree.Proofs.Style.RoundTrip
import StyleTree.Proofs.Css.Uniform
import StyleTree.Proofs.Number.Notation
import StyleTree.Proofs.Style.Writers
import StyleTree.Proofs.Json.Form
import StyleTree.Proofs.Json.Grammar
import StyleTree.Proofs.Json.Soundness
import StyleTree.Proofs.Style.Values
import StyleTree.Proofs.Style.Verdict
import StyleTree.Proofs.Style.Documents
import StyleTree.Proofs.Token.Ordered
import StyleTree.Proofs.Token.Keys
import StyleTree.Proofs.Token.Reaching
import StyleTree.Proofs.Config.Applying
import StyleTree.Proofs.Task.EntryPoints
import StyleTree.Proofs.Style.NormalForm
import StyleTree.Proofs.Css.Zeros
import StyleTree.Proofs.Task.ExpandedDocument
import StyleTree.Proofs.Token.Insertion
import StyleTree.Proofs.Token.Merging
import StyleTree.Proofs.Token.LeafByLeaf
import StyleTree.Proofs.Storage.FileSystems
import StyleTree.Proofs.Storage.Writing
import StyleTree.Proofs.Task.Atomicity
import StyleTree.Proofs.Token.Grouped
import StyleTree.Proofs.Style.FanOut
import StyleTree.Proofs.Entries.History
import StyleTree.Proofs.Entries.Layers
import StyleTree.Proofs.Text.Fingerprints
import StyleTree.Proofs.Style.ClassNames
import StyleTree.Proofs.Css.Rearranging
import StyleTree.Proofs.Css.Reuse
import StyleTree.Proofs.Css.Properties
import StyleTree.Proofs.Task.Checking
import StyleTree.Proofs.Task.Watching
import StyleTree.Proofs.Task.Preservation
