import CurvePuzzle.Bracket
import CurvePuzzle.CommandLine
import CurvePuzzle.Curve.Run
import CurvePuzzle.Curve.Tracer
import CurvePuzzle.Decimal.Binary
import CurvePuzzle.Decimal.Reader
import CurvePuzzle.Decimal.Shortest
import CurvePuzzle.Decimal.Text
import CurvePuzzle.Document.Basic
import CurvePuzzle.Document.Reader
import CurvePuzzle.Dot.Basic
import CurvePuzzle.Dot.Search
import CurvePuzzle.Formula.Basic
import CurvePuzzle.Formula.Equality
import CurvePuzzle.Formula.Evaluation
import CurvePuzzle.Formula.Printer
import CurvePuzzle.Formula.Reader
import CurvePuzzle.Formula.Shape
import CurvePuzzle.Journal
import CurvePuzzle.Layout
import CurvePuzzle.Loop
import CurvePuzzle.Main
import CurvePuzzle.OperatorScan
import CurvePuzzle.Proofs.BracketDepth
import CurvePuzzle.Proofs.ScanPieces
import CurvePuzzle.Random.Keystream
import CurvePuzzle.Random.Source
import CurvePuzzle.Round.Basic
import CurvePuzzle.Round.Report
import CurvePuzzle.Scalar
import CurvePuzzle.Score
import CurvePuzzle.Settings.Basic
import CurvePuzzle.Settings.Document
import CurvePuzzle.Text.Blank
import CurvePuzzle.Text.CaseTable
import CurvePuzzle.Text.EscapeTable
import CurvePuzzle.Text.Lines
import CurvePuzzle.Text.LowerCase
import CurvePuzzle.Text.Quoted
import CurvePuzzle.Text.Table
import CurvePuzzle.Text.WidthTable
import CurvePuzzle.Threshold
import CurvePuzzle.Proofs.Numeral
import CurvePuzzle.Proofs.Grammar
import CurvePuzzle.Proofs.PhraseReading
import CurvePuzzle.Proofs.PhraseOfText
import CurvePuzzle.Proofs.Acceptance
import CurvePuzzle.Proofs.CanonicalText
import CurvePuzzle.Proofs.FloatCode
import CurvePuzzle.Proofs.FloatRounding
import CurvePuzzle.Proofs.FloatArithmetic
import CurvePuzzle.Proofs.Hits
import CurvePuzzle.Proofs.TracedRuns
import CurvePuzzle.Proofs.DecimalReading
import CurvePuzzle.Proofs.RoundingInterval
import CurvePuzzle.Proofs.ShortestDigits
import CurvePuzzle.Proofs.NumberText
import CurvePuzzle.Proofs.FloatSpacing
import CurvePuzzle.Proofs.TraceEnds
import CurvePuzzle.Proofs.LayoutPossible
import CurvePuzzle.Proofs.ReadTrees
import CurvePuzzle.Proofs.SlotText
import CurvePuzzle.Proofs.ExactArithmetic
import CurvePuzzle.Proofs.WideBranches
import CurvePuzzle.Proofs.DotTests
import CurvePuzzle.Proofs.DotOrder
import CurvePuzzle.Proofs.AddedDot
import CurvePuzzle.Proofs.RunOrder
import CurvePuzzle.Proofs.FormulaParts
import CurvePuzzle.Proofs.Claiming
import CurvePuzzle.Proofs.ConstantTolerance
import CurvePuzzle.Proofs.Reordering
import CurvePuzzle.Proofs.EqualityOrder
import CurvePuzzle.Proofs.EqualityMeaning
import CurvePuzzle.Proofs.FloatZeros
import CurvePuzzle.Proofs.CanonicalMeaning
import CurvePuzzle.Proofs.InvalidParts
import CurvePuzzle.Proofs.FloatUndefined
import CurvePuzzle.Proofs.OperatorMeaning
import CurvePuzzle.Proofs.DocumentMap
import CurvePuzzle.Proofs.DocumentDraft
import CurvePuzzle.Proofs.DocumentReading
import CurvePuzzle.Proofs.SettingsOverride
import CurvePuzzle.Proofs.ValueOrder
import CurvePuzzle.Proofs.UndefinedValues
import CurvePuzzle.Proofs.RunWindow
import CurvePuzzle.Proofs.DotWindow
import CurvePuzzle.Proofs.Slices
import CurvePuzzle.Proofs.BalancedPieces
import CurvePuzzle.Proofs.PositionReader
import CurvePuzzle.Proofs.SelfEquality
import CurvePuzzle.Proofs.RunInsertion
import CurvePuzzle.Proofs.UniformDraw
import CurvePuzzle.Proofs.LayoutSound
import CurvePuzzle.Proofs.RunEnds
import CurvePuzzle.Proofs.ScoreSum
import CurvePuzzle.Proofs.BracketPartners
import CurvePuzzle.Proofs.OperatorPositions
import CurvePuzzle.Proofs.MirroredWalks
import CurvePuzzle.Proofs.ExactTraceEnds
