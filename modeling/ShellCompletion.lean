import ShellCompletion.Main
import ShellCompletion.Outcome
import ShellCompletion.Proofs.Acceptance.Directories
import ShellCompletion.Proofs.Acceptance.Options
import ShellCompletion.Proofs.Cache.Sharing
import ShellCompletion.Proofs.Cache.Trace
import ShellCompletion.Proofs.Handlers.Branches
import ShellCompletion.Proofs.Handlers.Redirection
import ShellCompletion.Proofs.Handlers.Words
import ShellCompletion.Proofs.History.Blocks
import ShellCompletion.Proofs.History.Suggestions
import ShellCompletion.Proofs.Line.Accounting
import ShellCompletion.Proofs.Line.Aliases
import ShellCompletion.Proofs.Line.Composition
import ShellCompletion.Proofs.Line.Flags
import ShellCompletion.Proofs.Line.Nodes
import ShellCompletion.Proofs.Line.Operators
import ShellCompletion.Proofs.Line.Tiling
import ShellCompletion.Proofs.Listings.Executables
import ShellCompletion.Proofs.Path.Home
import ShellCompletion.Proofs.Ranking.Narrowing
import ShellCompletion.Proofs.Ranking.Order
import ShellCompletion.Proofs.Ranking.Paths
import ShellCompletion.Proofs.Ranking.Scores
import ShellCompletion.Proofs.Requests.Supersession
import ShellCompletion.Proofs.Requests.Transparency
import ShellCompletion.Proofs.Schema.Documents
import ShellCompletion.Proofs.Settings.Applying
import ShellCompletion.Proofs.System.Accounts
import ShellCompletion.Proofs.System.Signals
import ShellCompletion.Proofs.Wrapping.Behind
