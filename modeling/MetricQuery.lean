import MetricQuery.Annotations
import MetricQuery.Bindings
import MetricQuery.Command.Arguments
import MetricQuery.Command.Invocation
import MetricQuery.Command.Run
import MetricQuery.Decimal.Layout
import MetricQuery.Decimal.Rounding
import MetricQuery.Document.Expression
import MetricQuery.Document.Query
import MetricQuery.Document.Reading
import MetricQuery.Document.Selector
import MetricQuery.Error
import MetricQuery.Execution
import MetricQuery.Expression
import MetricQuery.Json.Reader
import MetricQuery.Json.Value
import MetricQuery.Json.Writer
import MetricQuery.Main
import MetricQuery.Proofs.AliasSections
import MetricQuery.Proofs.AlignedRefinement
import MetricQuery.Proofs.Alignment
import MetricQuery.Proofs.AnnotationDocuments
import MetricQuery.Proofs.Arrangements
import MetricQuery.Proofs.Blanks
import MetricQuery.Proofs.BuilderRuns
import MetricQuery.Proofs.Calendar
import MetricQuery.Proofs.CommandArguments
import MetricQuery.Proofs.CommandQueries
import MetricQuery.Proofs.CommandSelections
import MetricQuery.Proofs.ConditionPlaces
import MetricQuery.Proofs.Copies
import MetricQuery.Proofs.Decodability
import MetricQuery.Proofs.DeepDocuments
import MetricQuery.Proofs.DocumentTimes
import MetricQuery.Proofs.DurationTexts
import MetricQuery.Proofs.Echo
import MetricQuery.Proofs.Environments
import MetricQuery.Proofs.ExcludedParts
import MetricQuery.Proofs.ExecutionRuns
import MetricQuery.Proofs.ExpressionDocuments
import MetricQuery.Proofs.FilledGaps
import MetricQuery.Proofs.FiniteNumbers
import MetricQuery.Proofs.FiniteTexts
import MetricQuery.Proofs.Gating
import MetricQuery.Proofs.Grouping
import MetricQuery.Proofs.Handles
import MetricQuery.Proofs.Inlining
import MetricQuery.Proofs.JsonTexts
import MetricQuery.Proofs.LowerCase
import MetricQuery.Proofs.NameGrammar
import MetricQuery.Proofs.NodeDocuments
import MetricQuery.Proofs.Nodes
import MetricQuery.Proofs.OptionTexts
import MetricQuery.Proofs.Overlays
import MetricQuery.Proofs.PartRuns
import MetricQuery.Proofs.Placement
import MetricQuery.Proofs.Preparation
import MetricQuery.Proofs.QueryDocuments
import MetricQuery.Proofs.QueryTexts
import MetricQuery.Proofs.QueryTimes
import MetricQuery.Proofs.ReachableNodes
import MetricQuery.Proofs.ReservedKey
import MetricQuery.Proofs.Rounding
import MetricQuery.Proofs.RowFaults
import MetricQuery.Proofs.RowOrder
import MetricQuery.Proofs.Samples
import MetricQuery.Proofs.Scopes
import MetricQuery.Proofs.Sections
import MetricQuery.Proofs.SelectorDocuments
import MetricQuery.Proofs.SelectorTexts
import MetricQuery.Proofs.SeriesOfRows
import MetricQuery.Proofs.SharedConfidence
import MetricQuery.Proofs.StaticKeys
import MetricQuery.Proofs.Structures
import MetricQuery.Proofs.TagTexts
import MetricQuery.Proofs.Unfolding
import MetricQuery.Proofs.UnknownOperators
import MetricQuery.Proofs.WellFormed
import MetricQuery.Proofs.WellFormedNodes
import MetricQuery.Proofs.WellFormedRuns
import MetricQuery.Proofs.WholeSeconds
import MetricQuery.Proofs.WordTimes
import MetricQuery.Query
import MetricQuery.Rendering
import MetricQuery.Selection
import MetricQuery.Selector
import MetricQuery.Series.Decoder
import MetricQuery.Series.Response
import MetricQuery.Series.Sample
import MetricQuery.Settings
import MetricQuery.Settings.File
import MetricQuery.Tag
import MetricQuery.Text.Character
import MetricQuery.Text.Lowercase
import MetricQuery.Time.Instant
import MetricQuery.Time.Range
import MetricQuery.Time.Reader
import MetricQuery.Toml.Fault
import MetricQuery.Toml.Number
import MetricQuery.Toml.Quoted
import MetricQuery.Toml.Reader
import MetricQuery.Toml.Tables
