import ClassDiagram.CommandLine.Arguments
import ClassDiagram.CommandLine.Directory
import ClassDiagram.CommandLine.Host
import ClassDiagram.CommandLine.Logging
import ClassDiagram.CommandLine.Option
import ClassDiagram.CommandLine.Program
import ClassDiagram.CommandLine.Report
import ClassDiagram.Decimal.Basic
import ClassDiagram.Decimal.Double
import ClassDiagram.Decimal.Shortest
import ClassDiagram.Json.Basic
import ClassDiagram.Json.Number
import ClassDiagram.Json.Printer
import ClassDiagram.Json.Reader
import ClassDiagram.Json.Record
import ClassDiagram.Layout.Canvas
import ClassDiagram.Layout.Cluster
import ClassDiagram.Layout.Codec
import ClassDiagram.Layout.Components
import ClassDiagram.Layout.Config
import ClassDiagram.Layout.Grid
import ClassDiagram.Layout.Snap
import ClassDiagram.Main
import ClassDiagram.Markup.Head
import ClassDiagram.Markup.Line
import ClassDiagram.Markup.Member
import ClassDiagram.Markup.Session
import ClassDiagram.Model.Basic
import ClassDiagram.Model.Codec
import ClassDiagram.Model.Filter
import ClassDiagram.Model.Listing
import ClassDiagram.NameMap
import ClassDiagram.Proofs.Arrow
import ClassDiagram.Proofs.ArrowForm
import ClassDiagram.Proofs.ArrowLine
import ClassDiagram.Proofs.AttributeName
import ClassDiagram.Proofs.Backtrack
import ClassDiagram.Proofs.Brace
import ClassDiagram.Proofs.BreadthFirst
import ClassDiagram.Proofs.Canvas
import ClassDiagram.Proofs.Caption
import ClassDiagram.Proofs.Cardinality
import ClassDiagram.Proofs.ClassName
import ClassDiagram.Proofs.Cluster
import ClassDiagram.Proofs.Codec
import ClassDiagram.Proofs.Components
import ClassDiagram.Proofs.Conversion
import ClassDiagram.Proofs.Detection
import ClassDiagram.Proofs.Distinct
import ClassDiagram.Proofs.Duplicate
import ClassDiagram.Proofs.Field
import ClassDiagram.Proofs.Flatten
import ClassDiagram.Proofs.Grid
import ClassDiagram.Proofs.Growth
import ClassDiagram.Proofs.Head
import ClassDiagram.Proofs.Index
import ClassDiagram.Proofs.Inheritance
import ClassDiagram.Proofs.Input
import ClassDiagram.Proofs.Join
import ClassDiagram.Proofs.JsonText
import ClassDiagram.Proofs.Latest
import ClassDiagram.Proofs.Line
import ClassDiagram.Proofs.Listing
import ClassDiagram.Proofs.Member
import ClassDiagram.Proofs.MemberLine
import ClassDiagram.Proofs.MemberSuffix
import ClassDiagram.Proofs.Mention
import ClassDiagram.Proofs.ModelCodec
import ClassDiagram.Proofs.NameSearch
import ClassDiagram.Proofs.Normal
import ClassDiagram.Proofs.Package
import ClassDiagram.Proofs.Packing
import ClassDiagram.Proofs.Primitive
import ClassDiagram.Proofs.Reading
import ClassDiagram.Proofs.Regex
import ClassDiagram.Proofs.Render
import ClassDiagram.Proofs.Repeats
import ClassDiagram.Proofs.RoundTrip
import ClassDiagram.Proofs.Rounding
import ClassDiagram.Proofs.RowMajor
import ClassDiagram.Proofs.Scan
import ClassDiagram.Proofs.SchemaCodec
import ClassDiagram.Proofs.Session
import ClassDiagram.Proofs.Silent
import ClassDiagram.Proofs.Snap
import ClassDiagram.Proofs.Step
import ClassDiagram.Proofs.Text
import ClassDiagram.Proofs.Title
import ClassDiagram.Proofs.Walk
import ClassDiagram.Proofs.WholeWord
import ClassDiagram.Proofs.WordSize
import ClassDiagram.Relation.Basic
import ClassDiagram.Relation.Pattern
import ClassDiagram.Relation.Table
import ClassDiagram.Scan
import ClassDiagram.Schema.Basic
import ClassDiagram.Schema.Codec
import ClassDiagram.Schema.Conversion
import ClassDiagram.Schema.Error
import ClassDiagram.Schema.Heuristics
import ClassDiagram.Schema.Index
import ClassDiagram.Schema.TypeSpec
import ClassDiagram.Text.Blank
import ClassDiagram.Text.Line
import ClassDiagram.Text.Lower
import ClassDiagram.Text.LowerTable
import ClassDiagram.Text.Search
import ClassDiagram.Text.Word
