import SourceBundle.Bundle.Basic
import SourceBundle.Bundle.Collect
import SourceBundle.Bundle.Counts
import SourceBundle.Bundle.Error
import SourceBundle.Bundle.Metrics
import SourceBundle.Bundle.Processing
import SourceBundle.Bundle.Progress
import SourceBundle.Cache
import SourceBundle.Charset.ByteSequences
import SourceBundle.Charset.Content
import SourceBundle.Charset.Utf16
import SourceBundle.Charset.Utf8
import SourceBundle.Charset.Western
import SourceBundle.CommandLine.Arguments
import SourceBundle.CommandLine.Command
import SourceBundle.CommandLine.Run
import SourceBundle.Comments.Catalog
import SourceBundle.Comments.Strip
import SourceBundle.Comments.Syntax
import SourceBundle.Document.Basic
import SourceBundle.Document.Markdown
import SourceBundle.Document.Parts
import SourceBundle.Document.Plain
import SourceBundle.Document.Xml
import SourceBundle.FileTree.Basic
import SourceBundle.FileTree.Lookup
import SourceBundle.Glob.Match
import SourceBundle.Glob.Pattern
import SourceBundle.Glob.PatternSet
import SourceBundle.Glob.Table
import SourceBundle.IgnoreFile.Expression
import SourceBundle.IgnoreFile.Limits
import SourceBundle.IgnoreFile.Match
import SourceBundle.IgnoreFile.Rules
import SourceBundle.IgnoreFile.Weight
import SourceBundle.IgnoreFile.Wildcard
import SourceBundle.Json.Number
import SourceBundle.Json.Reading
import SourceBundle.Json.Value
import SourceBundle.Listing
import SourceBundle.Main
import SourceBundle.Outline.Basic
import SourceBundle.Outline.Capture
import SourceBundle.Outline.Chunk
import SourceBundle.Outline.Language
import SourceBundle.Outline.Strategy
import SourceBundle.Path.Extension
import SourceBundle.Path.Order
import SourceBundle.Proofs.Comments.Scanning
import SourceBundle.Proofs.Comments.Segments
import SourceBundle.Proofs.Document.MarkdownReading
import SourceBundle.Proofs.Document.XmlGrammar
import SourceBundle.Proofs.Document.XmlReferences
import SourceBundle.Proofs.Outline.KeptTexts
import SourceBundle.Proofs.Sorting
import SourceBundle.Proofs.Text.Leads
import SourceBundle.Search.Basic
import SourceBundle.Search.DefaultPatterns
import SourceBundle.Search.Repository
import SourceBundle.Search.Scope
import SourceBundle.Search.Walk
import SourceBundle.Settings.Basic
import SourceBundle.Settings.Change
import SourceBundle.Settings.Document
import SourceBundle.Settings.Merge
import SourceBundle.Settings.Overrides
import SourceBundle.Settings.Style
import SourceBundle.Sorting
import SourceBundle.Tails
import SourceBundle.Text.Basic
import SourceBundle.Text.Blank
import SourceBundle.Text.Grouped
import SourceBundle.Text.Lines
import SourceBundle.Text.Lowercase
import SourceBundle.Text.Quoted
import SourceBundle.Unicode.Casing
import SourceBundle.Unicode.Ranges
import SourceBundle.Unicode.Unseen
import SourceBundle.Proofs.Text.Lines
import SourceBundle.Proofs.Comments.Rows
import SourceBundle.Proofs.Path.Order
import SourceBundle.Proofs.Path.Canonical
import SourceBundle.Proofs.Path.Sorters
import SourceBundle.Proofs.Listing.Places
import SourceBundle.Proofs.Listing.Files
import SourceBundle.Proofs.Listing.Canonical
import SourceBundle.Proofs.Bundle.Groups
import SourceBundle.Proofs.Glob.PatternSets
import SourceBundle.Proofs.Glob.Matching
import SourceBundle.Proofs.Glob.LiteralBrackets
import SourceBundle.Proofs.Glob.DirectoryForms
import SourceBundle.Proofs.Glob.Directories
import SourceBundle.Proofs.Search.Patterns
import SourceBundle.Proofs.FileTree.Places
import SourceBundle.Proofs.Search.Walks
import SourceBundle.Proofs.Search.Outcomes
import SourceBundle.Proofs.Search.Files
import SourceBundle.Proofs.Search.EmptyDirs
import SourceBundle.Proofs.Search.HollowDirs
import SourceBundle.Proofs.Listing.Reading
import SourceBundle.Proofs.Outline.Chunks
import SourceBundle.Proofs.Outline.Runs
import SourceBundle.Proofs.Outline.Excerpts
import SourceBundle.Proofs.Outline.SharedRows
import SourceBundle.Proofs.Search.Narrowing
import SourceBundle.Proofs.Search.VersionControl
import SourceBundle.Proofs.Search.Pruning
import SourceBundle.Proofs.Charset.Utf8
import SourceBundle.Proofs.Charset.Utf16
import SourceBundle.Proofs.Charset.Content
import SourceBundle.Proofs.Bundle.Counts
import SourceBundle.Proofs.Bundle.Metrics
import SourceBundle.Proofs.Json.Spelling
import SourceBundle.Proofs.Json.Number
import SourceBundle.Proofs.Json.Reading
import SourceBundle.Proofs.Json.Layouts
import SourceBundle.Proofs.Settings.Document
import SourceBundle.Proofs.Results
import SourceBundle.Proofs.Outline.Headers
import SourceBundle.Proofs.Outline.LongestChunks
import SourceBundle.Proofs.Text.LineEnds
import SourceBundle.Proofs.Outline.Decorators
import SourceBundle.Proofs.Comments.StringLiterals
import SourceBundle.Proofs.Comments.Docstrings
import SourceBundle.Proofs.Comments.NestedBlocks
import SourceBundle.Proofs.Settings.CheckedFields
import SourceBundle.Proofs.Glob.Faults
import SourceBundle.Proofs.Settings.TruthfulIssues
import SourceBundle.Proofs.CommandLine.Options
import SourceBundle.Proofs.Charset.Utf32
import SourceBundle.Proofs.Document.FencedBlocks
import SourceBundle.Proofs.Document.XmlProcessor
import SourceBundle.Proofs.Text.NumberedRows
import SourceBundle.Proofs.Text.GroupedNumerals
import SourceBundle.Proofs.Text.SolidRows
import SourceBundle.Proofs.Bundle.Processing
import SourceBundle.Proofs.Bundle.Rankings
import SourceBundle.Proofs.Cache.References
import SourceBundle.Proofs.Cache.Histories
import SourceBundle.Proofs.Cache.Agreement
