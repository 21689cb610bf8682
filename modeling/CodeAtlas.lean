import CodeAtlas.Analysis.Complexity
import CodeAtlas.Analysis.Dependencies
import CodeAtlas.Analysis.Overview
import CodeAtlas.Analysis.Similarity
import CodeAtlas.Analysis.Symbols
import CodeAtlas.Cache
import CodeAtlas.Config
import CodeAtlas.Config.File
import CodeAtlas.Document
import CodeAtlas.Error
import CodeAtlas.Files.Access
import CodeAtlas.Files.Glob
import CodeAtlas.Files.Ignore
import CodeAtlas.Files.Listing
import CodeAtlas.Files.Path
import CodeAtlas.Files.Policy
import CodeAtlas.Files.System
import CodeAtlas.Json.Printer
import CodeAtlas.Json.Reader
import CodeAtlas.Json.Value
import CodeAtlas.Language.Basic
import CodeAtlas.Language.Registry
import CodeAtlas.Language.Vocabulary
import CodeAtlas.Launch
import CodeAtlas.Main
import CodeAtlas.Number.Binary
import CodeAtlas.Number.Decimal
import CodeAtlas.Number.Unsigned
import CodeAtlas.Project
import CodeAtlas.Query.Adapt
import CodeAtlas.Query.Basic
import CodeAtlas.Query.Hit
import CodeAtlas.Query.Match
import CodeAtlas.Query.Reader
import CodeAtlas.Query.Template
import CodeAtlas.Query.Usage
import CodeAtlas.Regex.Basic
import CodeAtlas.Regex.CharSet
import CodeAtlas.Regex.Reader
import CodeAtlas.Search.Basic
import CodeAtlas.Search.Files
import CodeAtlas.Server.Arguments
import CodeAtlas.Server.Basic
import CodeAtlas.Server.Catalog
import CodeAtlas.Server.Request
import CodeAtlas.Server.Tool
import CodeAtlas.Snapshot
import CodeAtlas.Syntax.Cursor
import CodeAtlas.Syntax.Node
import CodeAtlas.Syntax.Outline
import CodeAtlas.Syntax.Position
import CodeAtlas.Syntax.Span
import CodeAtlas.Syntax.Spot
import CodeAtlas.Syntax.Traversal
import CodeAtlas.Text.Digest
import CodeAtlas.Text.Line
import CodeAtlas.Text.Quoted
import CodeAtlas.Text.Raw
import CodeAtlas.Text.Unicode.Case
import CodeAtlas.Text.Unicode.Category
import CodeAtlas.Text.Unicode.Property
import CodeAtlas.Text.Unicode.Runs
import CodeAtlas.Text.Unicode.Script
import CodeAtlas.Text.Unicode.Trait
import CodeAtlas.Text.Utf8
import CodeAtlas.Toml.Reader
import CodeAtlas.Toml.Table
import CodeAtlas.Workspace.Basic
import CodeAtlas.Workspace.Inspection
import CodeAtlas.Workspace.Queries
import CodeAtlas.Proofs.Cache.Slots
import CodeAtlas.Proofs.Cache.Steps
import CodeAtlas.Proofs.Cache.Accounting
import CodeAtlas.Proofs.Cache.Lru
import CodeAtlas.Proofs.Cache.Balance
import CodeAtlas.Proofs.Text.Utf8
import CodeAtlas.Proofs.Files.Containment
import CodeAtlas.Proofs.Cache.Transparency
import CodeAtlas.Proofs.Workspace.Alike
import CodeAtlas.Proofs.Workspace.Calls
import CodeAtlas.Proofs.Server.Tools
import CodeAtlas.Proofs.Server.Sessions
import CodeAtlas.Proofs.Files.Spelling
import CodeAtlas.Proofs.Files.Permission
import CodeAtlas.Proofs.Workspace.Runs
import CodeAtlas.Proofs.Workspace.Limits
import CodeAtlas.Proofs.Language.Registry
import CodeAtlas.Proofs.Query.Usage
import CodeAtlas.Proofs.Query.Templates
import CodeAtlas.Proofs.Workspace.Effects
import CodeAtlas.Proofs.Workspace.Footprints
import CodeAtlas.Proofs.Workspace.Coherence
import CodeAtlas.Proofs.Server.Failures
import CodeAtlas.Proofs.Files.Listing
import CodeAtlas.Proofs.Server.Answers
import CodeAtlas.Proofs.Workspace.Parts
import CodeAtlas.Proofs.Json.Grammar
import CodeAtlas.Proofs.Json.Printing
import CodeAtlas.Proofs.Json.Ordered
import CodeAtlas.Proofs.Json.Reading
import CodeAtlas.Proofs.Server.Framing
import CodeAtlas.Proofs.Project.Names
import CodeAtlas.Proofs.Project.Registration
import CodeAtlas.Proofs.Language.History
import CodeAtlas.Proofs.Number.Rounding
import CodeAtlas.Proofs.Analysis.Similarity
import CodeAtlas.Proofs.Workspace.Ranking
import CodeAtlas.Proofs.Workspace.Spellings
import CodeAtlas.Proofs.Syntax.Projection
import CodeAtlas.Proofs.Syntax.Rows
import CodeAtlas.Proofs.Syntax.Ranges
import CodeAtlas.Proofs.Text.Lines
import CodeAtlas.Proofs.Analysis.CommentLines
import CodeAtlas.Proofs.Query.Names
import CodeAtlas.Proofs.Query.Tokens
import CodeAtlas.Proofs.Query.Renaming
import CodeAtlas.Proofs.Query.Comments
import CodeAtlas.Proofs.Syntax.Spots
import CodeAtlas.Proofs.Query.Uses
import CodeAtlas.Proofs.Workspace.Usages
import CodeAtlas.Proofs.Syntax.Pruning
import CodeAtlas.Proofs.Syntax.Positions
import CodeAtlas.Proofs.Search.Windows
import CodeAtlas.Proofs.Workspace.Symbols
import CodeAtlas.Proofs.Analysis.Scores
import CodeAtlas.Proofs.Query.Matches
import CodeAtlas.Proofs.Query.Appending
import CodeAtlas.Proofs.Query.Unions
import CodeAtlas.Proofs.Analysis.Definitions
import CodeAtlas.Proofs.Analysis.Imports
import CodeAtlas.Proofs.Regex.Finding
import CodeAtlas.Proofs.Regex.Quoting
import CodeAtlas.Proofs.Search.Literals
import CodeAtlas.Proofs.Search.Files
import CodeAtlas.Proofs.Workspace.Pages
import CodeAtlas.Proofs.Config.Environment
import CodeAtlas.Proofs.Syntax.Routes
import CodeAtlas.Proofs.Syntax.Traversal
import CodeAtlas.Proofs.Analysis.Tally
import CodeAtlas.Proofs.Config.Independence
