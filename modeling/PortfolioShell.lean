import PortfolioShell.Main
import PortfolioShell.Proofs.Shell.Effect
import PortfolioShell.Proofs.Shell.Numbering
import PortfolioShell.Proofs.Shell.Submission
import PortfolioShell.Proofs.Tree.WellNamed
import PortfolioShell.Proofs.Shell.Run
import PortfolioShell.Proofs.Shell.Whereabouts
import PortfolioShell.Proofs.Shell.Diagnostics
import PortfolioShell.Proofs.Panel.Deliveries
import PortfolioShell.Proofs.Panel.LastSwitch
import PortfolioShell.Proofs.Shell.Records
import PortfolioShell.Proofs.Shell.Recall
import PortfolioShell.Proofs.Shell.Addresses
import PortfolioShell.Proofs.Shell.Completions
import PortfolioShell.Proofs.Shell.Targets
import PortfolioShell.Proofs.Shell.Spelling
import PortfolioShell.Proofs.Terminal.LineEditor
import PortfolioShell.Proofs.Terminal.Typing
import PortfolioShell.Proofs.Json.Canonical
import PortfolioShell.Proofs.Json.Loops
import PortfolioShell.Proofs.Json.RoundTrip
import PortfolioShell.Proofs.Tree.Contents
import PortfolioShell.Proofs.Tree.RoundTrip
import PortfolioShell.Proofs.Shell.Requests
import PortfolioShell.Proofs.Panel.Exchange
import PortfolioShell.Proofs.Shell.Responses
import PortfolioShell.Proofs.Terminal.Pending
import PortfolioShell.Proofs.Tree.FirstFlaw
import PortfolioShell.Proofs.Shell.Aliases
import PortfolioShell.Proofs.Tree.Routes
import PortfolioShell.Proofs.Tree.Display
import PortfolioShell.Proofs.Shell.Cycling
import PortfolioShell.Proofs.Terminal.Completing
import PortfolioShell.Proofs.Shell.Journeys
import PortfolioShell.Proofs.Text.Filling
import PortfolioShell.Proofs.Text.Spacing
import PortfolioShell.Proofs.Text.Occurrences
import PortfolioShell.Proofs.Shell.Searching
import PortfolioShell.Proofs.Text.Columns
import PortfolioShell.Proofs.Text.OneLine
import PortfolioShell.Proofs.Shell.LineFeeds
import PortfolioShell.Proofs.Json.Skipping
import PortfolioShell.Proofs.Json.Passing
import PortfolioShell.Proofs.Json.Decoding
import PortfolioShell.Proofs.Json.Indented
import PortfolioShell.Proofs.Json.Reordering
import PortfolioShell.Proofs.Files.ReadBack
import PortfolioShell.Proofs.Settings.Saved
import PortfolioShell.Proofs.Tree.Members
import PortfolioShell.Proofs.Tree.Reading
import PortfolioShell.Proofs.Tree.Rearranged
import PortfolioShell.Proofs.Shell.Parsing
import PortfolioShell.Proofs.Json.Lines
import PortfolioShell.Proofs.Shell.Rendered
