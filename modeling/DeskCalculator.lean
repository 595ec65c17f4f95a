import DeskCalculator.CommandLine.Program
import DeskCalculator.Main
import DeskCalculator.Proofs.Grammar.Acceptance
import DeskCalculator.Proofs.Evaluation.Course
import DeskCalculator.Proofs.Evaluation.Reports
import DeskCalculator.Proofs.Session.Ledger
import DeskCalculator.Proofs.Lexicon.Joining
import DeskCalculator.Proofs.Session.Separation
import DeskCalculator.Proofs.Session.Piece
import DeskCalculator.Proofs.Session.Interleaving
import DeskCalculator.Proofs.CommandLine.Modes
import DeskCalculator.Proofs.Attempt.Session
import DeskCalculator.Proofs.Session.Frame
import DeskCalculator.Proofs.Session.Failure
import DeskCalculator.Proofs.Session.Nesting
import DeskCalculator.Proofs.Session.Noninterference
import DeskCalculator.Proofs.Session.Abreast
import DeskCalculator.Proofs.Session.Renaming
import DeskCalculator.Proofs.Session.Spacing
import DeskCalculator.Proofs.Lexicon.ReadAhead
import DeskCalculator.Proofs.Source.Delivery
import DeskCalculator.Proofs.Session.Promptness
import DeskCalculator.Proofs.SymbolTable.Handles
import DeskCalculator.Proofs.Evaluation.Calls
import DeskCalculator.Proofs.Grammar.Passage
import DeskCalculator.Proofs.Session.Exhaustion
import DeskCalculator.Proofs.Session.Lines
import DeskCalculator.Proofs.Session.Reentry
import DeskCalculator.Proofs.Session.Demands
import DeskCalculator.Proofs.Evaluation.CallStack
