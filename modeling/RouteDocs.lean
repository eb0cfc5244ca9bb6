import RouteDocs.Calendar
import RouteDocs.Check
import RouteDocs.Cli
import RouteDocs.CodeSample
import RouteDocs.Digest
import RouteDocs.Document
import RouteDocs.Document.Merge
import RouteDocs.Endpoint
import RouteDocs.Endpoint.OfRoute
import RouteDocs.Entries
import RouteDocs.Error
import RouteDocs.Fault
import RouteDocs.Generation
import RouteDocs.Json.Reader
import RouteDocs.Json.Writer
import RouteDocs.Load.BaseDocument
import RouteDocs.Load.Manifest
import RouteDocs.Load.Settings
import RouteDocs.Main
import RouteDocs.Number.Binary64
import RouteDocs.Number.Notation
import RouteDocs.Number.Reading
import RouteDocs.Number.Rounding
import RouteDocs.Number.Shortest
import RouteDocs.PathTree
import RouteDocs.Proofs.Alike
import RouteDocs.Proofs.AlikeDocument
import RouteDocs.Proofs.AlikeEndpoint
import RouteDocs.Proofs.AlikeSample
import RouteDocs.Proofs.AlikeTree
import RouteDocs.Proofs.AuthorExamples
import RouteDocs.Proofs.BareBlock
import RouteDocs.Proofs.CalendarDays
import RouteDocs.Proofs.ClockEdge
import RouteDocs.Proofs.ComponentSchemas
import RouteDocs.Proofs.CompositeExample
import RouteDocs.Proofs.Coupling
import RouteDocs.Proofs.DeclaredFields
import RouteDocs.Proofs.DocumentPaths
import RouteDocs.Proofs.Draws
import RouteDocs.Proofs.Entries
import RouteDocs.Proofs.ErrorBoundary
import RouteDocs.Proofs.ExampleOrigins
import RouteDocs.Proofs.FileTree
import RouteDocs.Proofs.FloatText
import RouteDocs.Proofs.FlowContent
import RouteDocs.Proofs.FlowNodes
import RouteDocs.Proofs.FlowTokens
import RouteDocs.Proofs.GivenExamples
import RouteDocs.Proofs.Indentation
import RouteDocs.Proofs.JsonGrammar
import RouteDocs.Proofs.JsonReading
import RouteDocs.Proofs.LiteralExample
import RouteDocs.Proofs.LoadingBoundary
import RouteDocs.Proofs.ManifestFaults
import RouteDocs.Proofs.MappingKeys
import RouteDocs.Proofs.MergedPaths
import RouteDocs.Proofs.MonthDates
import RouteDocs.Proofs.NoonTrials
import RouteDocs.Proofs.NumberLiteral
import RouteDocs.Proofs.Numeral
import RouteDocs.Proofs.ParameterHead
import RouteDocs.Proofs.ParameterText
import RouteDocs.Proofs.PathMaps
import RouteDocs.Proofs.PathReads
import RouteDocs.Proofs.PathResolution
import RouteDocs.Proofs.PathTree
import RouteDocs.Proofs.PathVariables
import RouteDocs.Proofs.PathWrites
import RouteDocs.Proofs.PinnedDraws
import RouteDocs.Proofs.PlainScalar
import RouteDocs.Proofs.PlainText
import RouteDocs.Proofs.QuotedText
import RouteDocs.Proofs.ReaderCalls
import RouteDocs.Proofs.ReadingFaults
import RouteDocs.Proofs.RepeatedWrites
import RouteDocs.Proofs.ResponseText
import RouteDocs.Proofs.ReturnGrammar
import RouteDocs.Proofs.ReturnTypes
import RouteDocs.Proofs.RoundingError
import RouteDocs.Proofs.RouteIsolation
import RouteDocs.Proofs.RouteRuns
import RouteDocs.Proofs.SampleMethods
import RouteDocs.Proofs.SavedDocument
import RouteDocs.Proofs.SchemaDraws
import RouteDocs.Proofs.SchemaFaults
import RouteDocs.Proofs.ScriptLiterals
import RouteDocs.Proofs.ScriptReader
import RouteDocs.Proofs.ScriptSample
import RouteDocs.Proofs.ShellSample
import RouteDocs.Proofs.ShellWords
import RouteDocs.Proofs.Shortest
import RouteDocs.Proofs.Shorthand
import RouteDocs.Proofs.ShownValues
import RouteDocs.Proofs.StrictJson
import RouteDocs.Proofs.StructuralDeterminism
import RouteDocs.Proofs.TimeStamps
import RouteDocs.Proofs.TreePaths
import RouteDocs.Proofs.TypeNormalization
import RouteDocs.Proofs.UntangledBlocks
import RouteDocs.Proofs.Words
import RouteDocs.Random.Congruential
import RouteDocs.Random.Source
import RouteDocs.Random.Twister
import RouteDocs.Route.Basic
import RouteDocs.Route.Template
import RouteDocs.Settings
import RouteDocs.Storage.Basic
import RouteDocs.Storage.FileTree
import RouteDocs.Storage.Path
import RouteDocs.Synthesis
import RouteDocs.Tag.Parameter
import RouteDocs.Tag.PropertyBlock
import RouteDocs.Tag.Response
import RouteDocs.Text.Base64
import RouteDocs.Text.Basic
import RouteDocs.Text.Blank
import RouteDocs.Text.Digit
import RouteDocs.Text.Hex
import RouteDocs.Text.LetterCase
import RouteDocs.Text.Lines
import RouteDocs.Text.Percent
import RouteDocs.Text.Printable
import RouteDocs.Text.Quoted
import RouteDocs.Text.Ranges
import RouteDocs.Text.Style
import RouteDocs.Text.Units
import RouteDocs.Text.Word
import RouteDocs.TypeName
import RouteDocs.Value.Basic
import RouteDocs.Value.Literal
import RouteDocs.Value.Part
import RouteDocs.Value.SetOrder
import RouteDocs.Yaml.Content
import RouteDocs.Yaml.Cursor
import RouteDocs.Yaml.Kind
import RouteDocs.Yaml.Node
import RouteDocs.Yaml.Property
import RouteDocs.Yaml.ScalarText
import RouteDocs.Yaml.ScalarValue
import RouteDocs.Yaml.Token
import RouteDocs.Yaml.TokenStream
