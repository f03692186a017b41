import ScriptLiteral.Main
import ScriptLiteral.Token.Store
import ScriptLiteral.Proofs.Utf16
import ScriptLiteral.Proofs.FaultyEscape
import ScriptLiteral.Proofs.Binary64Value
import ScriptLiteral.Proofs.NearestDouble
import ScriptLiteral.Proofs.NumeralGrammar
import ScriptLiteral.Proofs.NumberValue
import ScriptLiteral.Proofs.RenderedString
import ScriptLiteral.Proofs.TokenCache
import ScriptLiteral.Proofs.Notation
import ScriptLiteral.Proofs.NumberText
import ScriptLiteral.Proofs.ListingOutput
import ScriptLiteral.Proofs.RecordLines
import ScriptLiteral.Proofs.UnitText
import ScriptLiteral.Proofs.FullSink
import ScriptLiteral.Proofs.Arguments
import ScriptLiteral.Proofs.Invocations
import ScriptLiteral.Proofs.RoundingInterval
import ScriptLiteral.Proofs.FewestDigits
import ScriptLiteral.Proofs.PrintedDigits
import ScriptLiteral.Proofs.ShortestText
import ScriptLiteral.Proofs.NumeralLanguage
import ScriptLiteral.Proofs.JoinedTexts
import ScriptLiteral.Proofs.StepwiseDecoding
import ScriptLiteral.Proofs.Replacement
import ScriptLiteral.Proofs.RowLayout
import ScriptLiteral.Proofs.RowGaps
import ScriptLiteral.Proofs.ValueCollisions
import ScriptLiteral.Proofs.LineEndings
import ScriptLiteral.Proofs.CellFilling
import ScriptLiteral.Proofs.UnpairedUnits
import ScriptLiteral.Proofs.RunReports
import ScriptLiteral.Proofs.ValueLength
import ScriptLiteral.Proofs.GuessedKind
import ScriptLiteral.Proofs.RunLog
import ScriptLiteral.Proofs.VerboseArguments
import ScriptLiteral.Proofs.Verbosity
import ScriptLiteral.Proofs.ArrangedArguments
import ScriptLiteral.Proofs.VisibleText
import ScriptLiteral.Proofs.ControlCharacters
import ScriptLiteral.Proofs.CheckedLayout
import ScriptLiteral.Proofs.LineSpans
