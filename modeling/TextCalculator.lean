import TextCalculator.Main
import TextCalculator.Proofs.CertifiedHistory
import TextCalculator.Proofs.Chain
import TextCalculator.Proofs.ChainEvaluation
import TextCalculator.Proofs.ChainText
import TextCalculator.Proofs.Digits
import TextCalculator.Proofs.Division
import TextCalculator.Proofs.Exhaustion
import TextCalculator.Proofs.GrowingFile
import TextCalculator.Proofs.HistoryLines
import TextCalculator.Proofs.Irreducible
import TextCalculator.Proofs.LiteralGrammar
import TextCalculator.Proofs.MinusSigns
import TextCalculator.Proofs.Occurrence
import TextCalculator.Proofs.Operand
import TextCalculator.Proofs.OperatorBalance
import TextCalculator.Proofs.ReadBack
import TextCalculator.Proofs.Response
import TextCalculator.Proofs.Rounding
import TextCalculator.Proofs.Run
import TextCalculator.Proofs.Separation
import TextCalculator.Proofs.SessionLoop
import TextCalculator.Proofs.Shortest
import TextCalculator.Proofs.Sweep
import TextCalculator.Proofs.Termination
import TextCalculator.Proofs.WrittenForm
import TextCalculator.Proofs.Oblivious
import TextCalculator.Proofs.ReadLoop
import TextCalculator.Proofs.AppendOnly
import TextCalculator.Proofs.StandardInput
import TextCalculator.Proofs.BrokenSinks
import TextCalculator.Proofs.Preference
import TextCalculator.Proofs.LeftmostLongest
import TextCalculator.Proofs.Nearest
import TextCalculator.Proofs.LiteralReading
import TextCalculator.Proofs.LastLine
import TextCalculator.Proofs.AbsoluteForm
import TextCalculator.Proofs.RunLog
import TextCalculator.Proofs.HomeExpansion
import TextCalculator.Proofs.WholeQuotient
import TextCalculator.Proofs.Trimming
import TextCalculator.Proofs.CommandWords
import TextCalculator.Proofs.EncodedMagnitude
import TextCalculator.Proofs.NumberForms
