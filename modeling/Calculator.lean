import Calculator.Expr.Spelling
import Calculator.Main
import Calculator.Proofs.Calculation.Listings
import Calculator.Proofs.Calculation.MinusRun
import Calculator.Proofs.Calculation.Numerals
import Calculator.Proofs.Calculation.PrintedGroup
import Calculator.Proofs.Calculation.UnaryPlus
import Calculator.Proofs.Calculation.WrittenTree
import Calculator.Proofs.CommandLine.Scripts
import Calculator.Proofs.CommandLine.Stages
import Calculator.Proofs.Expr.NonFinite
import Calculator.Proofs.Expr.Spelling
import Calculator.Proofs.Number.Rounding
import Calculator.Proofs.Syntax.CursorRun
import Calculator.Proofs.Syntax.Locality
import Calculator.Proofs.Syntax.Substitution
import Calculator.Proofs.Token.Writing
