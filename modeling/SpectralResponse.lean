import SpectralResponse.Scalar.Double
import SpectralResponse.Decimal.Numeral
import SpectralResponse.Text
import SpectralResponse.Fault.Diagnostic
import SpectralResponse.BinValues
import SpectralResponse.CompensatedSum
import SpectralResponse.Grid.EdgeUnit
import SpectralResponse.Grid.Union
import SpectralResponse.Rebin.Overlap
import SpectralResponse.Warning
import SpectralResponse.Json.Parser
import SpectralResponse.Json.Printer
import SpectralResponse.Columns
import SpectralResponse.Arena.Request
import SpectralResponse.Config.Document
import SpectralResponse.Table.Document
import SpectralResponse.EffectiveArea.Table
import SpectralResponse.ResponseMatrix.Delta
import SpectralResponse.ResponseMatrix.Summary
import SpectralResponse.ResponseMatrix.Table
import SpectralResponse.Flux
import SpectralResponse.Spectrum.Table
import SpectralResponse.Spectrum.Request
import SpectralResponse.Session.Prediction
import SpectralResponse.Warning.Record
import SpectralResponse.BinValues.Document
import SpectralResponse.Grid.Document
import SpectralResponse.CommandLine.FileTree
import SpectralResponse.Main
import SpectralResponse.Proofs.Arena
import SpectralResponse.Proofs.Columns
import SpectralResponse.Proofs.Arena.History
import SpectralResponse.Proofs.Session.Outcome
import SpectralResponse.Proofs.Session.Run
import SpectralResponse.Proofs.Session.Reading
import SpectralResponse.Proofs.Session.Uses
import SpectralResponse.Proofs.Session.Steps
import SpectralResponse.Proofs.Session.Refresh
import SpectralResponse.Proofs.Session.Responses
import SpectralResponse.Proofs.Session.Balance
import SpectralResponse.Proofs.Session.Lifetimes
import SpectralResponse.Proofs.Ascending
import SpectralResponse.Proofs.Session.Regroup
import SpectralResponse.Proofs.Grid.Canonical
import SpectralResponse.Proofs.ResponseMatrix.Groups
import SpectralResponse.Proofs.ResponseMatrix.Reading
import SpectralResponse.Proofs.ResponseMatrix.Placement
import SpectralResponse.Proofs.Rebin.Sums
import SpectralResponse.Proofs.Grid.Wide
import SpectralResponse.Proofs.Grouping.Proper
import SpectralResponse.Proofs.Grouping.Sums
import SpectralResponse.Proofs.ResponseMatrix.Folding
import SpectralResponse.Proofs.ResponseMatrix.Moving
import SpectralResponse.Proofs.Session.Sharing
import SpectralResponse.Proofs.Spectrum.Sound
import SpectralResponse.Proofs.Session.Freeing
import SpectralResponse.Proofs.Session.Effects
import SpectralResponse.Proofs.Session.Placing
import SpectralResponse.Proofs.Session.PlacingOperations
import SpectralResponse.Proofs.Session.Alignment
import SpectralResponse.Proofs.Session.Axes
import SpectralResponse.Proofs.Session.AxesRuns
import SpectralResponse.Proofs.Session.GroupedCounts
import SpectralResponse.Proofs.Scalar.Rational
import SpectralResponse.Proofs.ResponseMatrix.History
import SpectralResponse.Proofs.Session.MatrixMoves
import SpectralResponse.Proofs.Rebin.Linear
import SpectralResponse.Proofs.Rebin.Coverage
import SpectralResponse.Proofs.Grid.Ordered
import SpectralResponse.Proofs.ResponseMatrix.Built
import SpectralResponse.Proofs.ResponseMatrix.Commuting
import SpectralResponse.Proofs.Grouping.Whole
import SpectralResponse.Proofs.Spectrum.Edits
import SpectralResponse.Proofs.Spectrum.Tidy
import SpectralResponse.Proofs.Spectrum.InPlace
import SpectralResponse.Proofs.Spectrum.Requests
import SpectralResponse.Proofs.Grouping.Means
import SpectralResponse.Proofs.Flux.Weights
import SpectralResponse.Proofs.ResponseMatrix.Noticing
import SpectralResponse.Proofs.Session.Values
import SpectralResponse.Proofs.Session.NoticedBins
import SpectralResponse.Proofs.Alike
import SpectralResponse.Proofs.Grid.Reversed
import SpectralResponse.Proofs.Table.Reversed
import SpectralResponse.Proofs.ResponseMatrix.RowOrder
import SpectralResponse.Proofs.RowOrder
import SpectralResponse.Proofs.Grid.Lookup
import SpectralResponse.Proofs.Grid.Union
import SpectralResponse.Proofs.Rebin.Union
import SpectralResponse.Proofs.Session.Grids
import SpectralResponse.Proofs.Session.Cache
import SpectralResponse.Proofs.Session.Predictions
import SpectralResponse.Proofs.Session.Strategies
import SpectralResponse.Proofs.Session.KeptGrid
import SpectralResponse.Proofs.ResponseMatrix.WellFormed
import SpectralResponse.Proofs.ResponseMatrix.Geometry
import SpectralResponse.Proofs.Session.FailedChanges
import SpectralResponse.Proofs.Session.FitPairs
import SpectralResponse.Proofs.Session.FitPairsOperations
import SpectralResponse.Proofs.Session.FitPairsRuns
import SpectralResponse.Proofs.Session.Fitting
import SpectralResponse.Proofs.Session.FitArrays
import SpectralResponse.Proofs.Session.Corrections
import SpectralResponse.Proofs.Session.FlatSources
import SpectralResponse.Proofs.Session.TakingOver
import SpectralResponse.Proofs.Scalar.DoubleProducts
import SpectralResponse.Proofs.Spectrum.StoredRows
import SpectralResponse.Proofs.Session.Protection
import SpectralResponse.Proofs.Grouping.Runs
import SpectralResponse.Proofs.Grouping.Masks
import SpectralResponse.Proofs.Grouping.LeastCount
import SpectralResponse.Proofs.Rebin.Refinement
import SpectralResponse.Proofs.Grid.Units
import SpectralResponse.Proofs.Rebin.WeightedMeans
import SpectralResponse.Proofs.ResponseMatrix.Silencing
import SpectralResponse.Proofs.Spectrum.Ranges
import SpectralResponse.Proofs.Spectrum.Uncertainties
import SpectralResponse.Proofs.Scalar.Comparisons
import SpectralResponse.Proofs.Scalar.DoubleComparisons
import SpectralResponse.Proofs.ResponseMatrix.Runs
import SpectralResponse.Proofs.ResponseMatrix.DenseProduct
import SpectralResponse.Proofs.Json.Tokens
import SpectralResponse.Proofs.Json.Documents
import SpectralResponse.Proofs.Table.RoundTrip
