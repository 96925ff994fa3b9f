import TextMatch.MatchError.Report
import TextMatch.Script
import TextMatch.Proofs.Position.Counters
import TextMatch.Proofs.Source.Cursors
import TextMatch.Proofs.Scanner.Scan
import TextMatch.Proofs.Expr.Induction
import TextMatch.Proofs.Matcher.Invariant
import TextMatch.Proofs.Scanner.Reach
import TextMatch.Proofs.Reading.Progress
import TextMatch.Proofs.Reading.Agreement
import TextMatch.Proofs.Reference.Matcher
import TextMatch.Proofs.Reference.Refinement
import TextMatch.Proofs.Source.Shown
import TextMatch.Proofs.Reading.Boundary
import TextMatch.Proofs.Matcher.Restoring
import TextMatch.Proofs.Expr.Parts
import TextMatch.Proofs.Reading.Errors
import TextMatch.Proofs.Scanner.Travel
import TextMatch.Proofs.Matcher.HookBoundary
import TextMatch.Proofs.Matcher.Limit
import TextMatch.Proofs.Matcher.Termination
import TextMatch.Proofs.Reading.BytesLeft
import TextMatch.Proofs.Reading.MalformedTail
import TextMatch.Proofs.Reading.GreedyRun
import TextMatch.Proofs.Reading.Mismatches
import TextMatch.Proofs.Matcher.Course
import TextMatch.Proofs.Matcher.Recount
import TextMatch.Proofs.Matcher.Fatal
import TextMatch.Proofs.Matcher.Report
import TextMatch.Proofs.Matcher.Trace
import TextMatch.Proofs.Expr.Context
import TextMatch.Proofs.Reading.Congruence
import TextMatch.Proofs.Reading.Search
import TextMatch.Proofs.Reading.Forward
import TextMatch.Proofs.Matcher.Unlogged
import TextMatch.Proofs.Matcher.Sequencing
import TextMatch.Proofs.Reading.Choice
import TextMatch.Proofs.Matcher.Spelling
import TextMatch.Proofs.Source.Lines
import TextMatch.Proofs.Scanner.Views
import TextMatch.Proofs.MatchError.Excerpt
import TextMatch.Proofs.Position.Order
import TextMatch.Proofs.Scanner.Order
import TextMatch.Proofs.Text.Delimited
import TextMatch.Proofs.Text.Phrase
import TextMatch.Proofs.Expr.Printing
