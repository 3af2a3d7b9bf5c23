import GraphqlLiteral.Body
import GraphqlLiteral.Cli.Command
import GraphqlLiteral.CodePoint
import GraphqlLiteral.Escape
import GraphqlLiteral.Grammar
import GraphqlLiteral.Main
import GraphqlLiteral.Problem
import GraphqlLiteral.Proofs.Body.Bytewise
import GraphqlLiteral.Proofs.Body.Division
import GraphqlLiteral.Proofs.Body.Failure
import GraphqlLiteral.Proofs.Body.Located
import GraphqlLiteral.Proofs.Body.Pairing
import GraphqlLiteral.Proofs.Body.Separator
import GraphqlLiteral.Proofs.Body.Size
import GraphqlLiteral.Proofs.Body.Steps
import GraphqlLiteral.Proofs.Cli.Check
import GraphqlLiteral.Proofs.Cli.Decode
import GraphqlLiteral.Proofs.CodePoint
import GraphqlLiteral.Proofs.Escape.DigitRun
import GraphqlLiteral.Proofs.Escape.Meaning
import GraphqlLiteral.Proofs.Escape.Spelling
import GraphqlLiteral.Proofs.Escape.Unfinished
import GraphqlLiteral.Proofs.Problem
import GraphqlLiteral.Proofs.Report.Append
import GraphqlLiteral.Proofs.Report.BadLines
import GraphqlLiteral.Proofs.Report.Whole
import GraphqlLiteral.Proofs.Text.Lines
import GraphqlLiteral.Proofs.Text.Quoted
import GraphqlLiteral.Proofs.Token.Read
import GraphqlLiteral.Proofs.Token.Run
import GraphqlLiteral.Proofs.Token.Spans
import GraphqlLiteral.Report
import GraphqlLiteral.Text.Bytes
import GraphqlLiteral.Text.Quoted
import GraphqlLiteral.Token
