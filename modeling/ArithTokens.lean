import ArithTokens.Main
import ArithTokens.Proofs.Caret
import ArithTokens.Proofs.FailFast
import ArithTokens.Proofs.InsertedBlanks
import ArithTokens.Proofs.LineByLine
import ArithTokens.Proofs.LineDiagnostics
import ArithTokens.Proofs.LineEnds
import ArithTokens.Proofs.LineReading
import ArithTokens.Proofs.Listing
import ArithTokens.Proofs.LocalForm
import ArithTokens.Proofs.LogAgreement
import ArithTokens.Proofs.Messages
import ArithTokens.Proofs.NumberValue
import ArithTokens.Proofs.ReportAndContinue
import ArithTokens.Proofs.Reprint
import ArithTokens.Proofs.Segmentation
import ArithTokens.Proofs.ShortestText
import ArithTokens.Proofs.ViablePrefix
