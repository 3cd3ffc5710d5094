import TableDocs.Collection.Basic
import TableDocs.Collection.Document
import TableDocs.Collection.File
import TableDocs.Collection.Loading
import TableDocs.Collection.Records
import TableDocs.CommandLine.Arguments
import TableDocs.CommandLine.Command
import TableDocs.CommandLine.Invocation
import TableDocs.CommandLine.Run
import TableDocs.Data.Binary64
import TableDocs.Data.Value
import TableDocs.Extraction.Directory
import TableDocs.Extraction.Pool
import TableDocs.Extraction.Report
import TableDocs.Extraction.Source
import TableDocs.Extraction.Sources
import TableDocs.Files.AtomicWrite
import TableDocs.Files.Discovery
import TableDocs.Files.Encoding
import TableDocs.Files.Path
import TableDocs.Files.Tree
import TableDocs.Files.Workspace
import TableDocs.Json.Printer
import TableDocs.Json.Reader
import TableDocs.Json.Token
import TableDocs.Log.Layout
import TableDocs.Log.Record
import TableDocs.Main
import TableDocs.Markdown.Labels
import TableDocs.Markdown.Render
import TableDocs.Proofs.Sql.GroupExtent
import TableDocs.Proofs.Sql.ReaderExtent
import TableDocs.Settings.Basic
import TableDocs.Settings.Loading
import TableDocs.Settings.Reading
import TableDocs.Sql.ColumnDef
import TableDocs.Sql.Dialect
import TableDocs.Sql.Group
import TableDocs.Sql.Header
import TableDocs.Sql.Lexeme
import TableDocs.Sql.Name
import TableDocs.Sql.PrimaryKey
import TableDocs.Sql.Script
import TableDocs.Sql.Table
import TableDocs.Sql.TableOptions
import TableDocs.Sql.Token
import TableDocs.Sql.Token.Comment
import TableDocs.Sql.Token.Escape
import TableDocs.Sql.Token.Lexer
import TableDocs.Sql.Token.Number
import TableDocs.Sql.Token.Phrase
import TableDocs.Sql.Token.Piece
import TableDocs.Sql.Token.Quoted
import TableDocs.Sql.TypeText
import TableDocs.Text.Blank
import TableDocs.Text.CaseMap
import TableDocs.Text.Digit
import TableDocs.Text.Integer
import TableDocs.Text.Quoted
import TableDocs.Text.RangeTable
import TableDocs.Text.WordChar
import TableDocs.Validation.Checked
import TableDocs.Validation.Coerce
import TableDocs.Validation.Problem
import TableDocs.Yaml.Layout
import TableDocs.Yaml.PlainValue
import TableDocs.Yaml.Reader
import TableDocs.Yaml.ScalarText
import TableDocs.Yaml.Token
import TableDocs.Proofs.Sql.DefinitionExtent
import TableDocs.Proofs.Sql.StatementIsolation
import TableDocs.Proofs.Sql.ScanAccount
import TableDocs.Proofs.Sql.ColumnExtent
import TableDocs.Proofs.Sql.ColumnNullability
import TableDocs.Proofs.Json.RoundTrip
import TableDocs.Proofs.Collection.RoundTrip
import TableDocs.Proofs.Sql.BodyPartition
import TableDocs.Proofs.Sql.Relabeling
import TableDocs.Proofs.Sql.TwoReadings
import TableDocs.Proofs.Sql.LayoutIndependence
import TableDocs.Proofs.Markdown.Cells
import TableDocs.Proofs.Markdown.DocumentStructure
import TableDocs.Proofs.Sql.KeyClause
import TableDocs.Proofs.Sql.Transcription
import TableDocs.Proofs.Sql.PrimaryKeys
import TableDocs.Proofs.Extraction.WorkerPool
import TableDocs.Proofs.Sql.CommentSource
import TableDocs.Proofs.Sql.BodyAlone
import TableDocs.Proofs.Sql.LiteralIndependence
import TableDocs.Proofs.Collection.WrittenFile
import TableDocs.Proofs.Files.AtomicWrite
import TableDocs.Proofs.Extraction.ReadableSources
import TableDocs.Proofs.CommandLine.Call
import TableDocs.Proofs.CommandLine.Session
import TableDocs.Proofs.Sql.Grammar
import TableDocs.Proofs.Sql.HeaderGrammar
import TableDocs.Proofs.Sql.ColumnGrammar
import TableDocs.Proofs.Extraction.RunAccount
import TableDocs.Proofs.Sql.BracketedCommas
import TableDocs.Proofs.Markdown.RowReading
import TableDocs.Proofs.Sql.OptionGrammar
import TableDocs.Proofs.Sql.TableComment
import TableDocs.Proofs.Sql.AttributeBoundary
import TableDocs.Proofs.Sql.Qualifiers
import TableDocs.Proofs.Sql.TransparentQualifiers
import TableDocs.Proofs.CommandLine.AtomicOutput
import TableDocs.Proofs.Collection.DeclaredMembers
import TableDocs.Proofs.CommandLine.ChosenSettings
import TableDocs.Proofs.Files.Discovery
import TableDocs.Proofs.Sql.ClosingIndex
import TableDocs.Proofs.Sql.CapturedBodies
import TableDocs.Proofs.Sql.ColumnProgress
import TableDocs.Proofs.Sql.TypeSpacing
import TableDocs.Proofs.Text.Words
import TableDocs.Proofs.Sql.AnomalyRecords
import TableDocs.Proofs.Sql.TokenPlaces
