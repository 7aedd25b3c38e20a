import SyntaxQuery.Binary64
import SyntaxQuery.Cache
import SyntaxQuery.CommandLine.Arguments
import SyntaxQuery.CommandLine.Info
import SyntaxQuery.CommandLine.Run
import SyntaxQuery.Concrete.Basic
import SyntaxQuery.Concrete.Table
import SyntaxQuery.Config
import SyntaxQuery.Decimal
import SyntaxQuery.Engine
import SyntaxQuery.Error
import SyntaxQuery.Error.Diagnostic
import SyntaxQuery.Files
import SyntaxQuery.Grammar
import SyntaxQuery.Json.Basic
import SyntaxQuery.Json.Fault
import SyntaxQuery.Json.Lexeme
import SyntaxQuery.Json.Number
import SyntaxQuery.Json.Reader
import SyntaxQuery.Json.Writer
import SyntaxQuery.LogFilter
import SyntaxQuery.LogFilter.Directive
import SyntaxQuery.Main
import SyntaxQuery.Position
import SyntaxQuery.Proofs.Cache
import SyntaxQuery.Proofs.Cache.Options
import SyntaxQuery.Proofs.Cache.Recency
import SyntaxQuery.Proofs.Cache.Shared
import SyntaxQuery.Proofs.CommandLine.Agreement
import SyntaxQuery.Proofs.CommandLine.Arguments
import SyntaxQuery.Proofs.Concrete.Preorder
import SyntaxQuery.Proofs.Containers
import SyntaxQuery.Proofs.Json.Compact
import SyntaxQuery.Proofs.Json.Numeral
import SyntaxQuery.Proofs.Json.Octets
import SyntaxQuery.Proofs.Json.Pretty
import SyntaxQuery.Proofs.Json.Quoted
import SyntaxQuery.Proofs.Json.Value
import SyntaxQuery.Proofs.Malformed
import SyntaxQuery.Proofs.Position
import SyntaxQuery.Proofs.Position.Written
import SyntaxQuery.Proofs.Provider
import SyntaxQuery.Proofs.Request.Declared
import SyntaxQuery.Proofs.Request.Question
import SyntaxQuery.Proofs.Server
import SyntaxQuery.Proofs.Server.Echo
import SyntaxQuery.Proofs.Source.Arguments
import SyntaxQuery.Proofs.Source.Characters
import SyntaxQuery.Proofs.Source.Containers
import SyntaxQuery.Proofs.Source.Faults
import SyntaxQuery.Proofs.Source.Layout
import SyntaxQuery.Proofs.Source.Links
import SyntaxQuery.Proofs.Source.Outline
import SyntaxQuery.Proofs.Source.Preorder
import SyntaxQuery.Proofs.Source.Queries
import SyntaxQuery.Proofs.Source.RegionText
import SyntaxQuery.Proofs.Text.Place
import SyntaxQuery.Proofs.Tree.Climb
import SyntaxQuery.Proofs.Tree.Descent
import SyntaxQuery.Proofs.Tree.Lineage
import SyntaxQuery.Proofs.Tree.Nested
import SyntaxQuery.Proofs.Tree.Parting
import SyntaxQuery.Proofs.Tree.Region
import SyntaxQuery.Proofs.Tree.Scopes
import SyntaxQuery.Proofs.Tree.Total
import SyntaxQuery.Proofs.Walk
import SyntaxQuery.Provider
import SyntaxQuery.Request.Basic
import SyntaxQuery.Request.Decode
import SyntaxQuery.Request.Method
import SyntaxQuery.Server
import SyntaxQuery.Source.Arguments
import SyntaxQuery.Source.Outline
import SyntaxQuery.Source.Report
import SyntaxQuery.Source.Shape
import SyntaxQuery.Source.Snapshot
import SyntaxQuery.Text.Alphanumeric
import SyntaxQuery.Text.Blank
import SyntaxQuery.Text.Escaped
import SyntaxQuery.Text.Numeral
import SyntaxQuery.Text.Quoted
import SyntaxQuery.Text.Ranges
import SyntaxQuery.Text.Utf8
import SyntaxQuery.Toml.Basic
import SyntaxQuery.Toml.Reader
import SyntaxQuery.Tree.Ancestors
import SyntaxQuery.Tree.Basic
import SyntaxQuery.Tree.Descent
import SyntaxQuery.Tree.Drawn
import SyntaxQuery.Tree.Region
import SyntaxQuery.Tree.Scopes
