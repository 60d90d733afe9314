import JobBoard.Main
import JobBoard.Proofs.Dashboard.Clicks
import JobBoard.Proofs.Dashboard.Render
import JobBoard.Proofs.Terminal.Phases
import JobBoard.Proofs.Dashboard.Requests
import JobBoard.Proofs.Toast.Stages
import JobBoard.Proofs.Dashboard.Toasts
import JobBoard.Proofs.Terminal.Toasts
import JobBoard.Proofs.Board.Report
import JobBoard.Proofs.Dashboard.Isolation
import JobBoard.Proofs.Board.Relisting
import JobBoard.Proofs.Terminal.Screen
import JobBoard.Proofs.Backend.Outcomes
import JobBoard.Proofs.Terminal.Tokens
import JobBoard.Proofs.Terminal.Rejections
import JobBoard.Proofs.Backend.Listing
import JobBoard.Proofs.Action.Automaton
import JobBoard.Proofs.Dashboard.Repeats
import JobBoard.Proofs.Toast.History
import JobBoard.Proofs.Backend.Links
import JobBoard.Proofs.Terminal.Bodies
import JobBoard.Proofs.Backend.Endpoints
import JobBoard.Proofs.Terminal.Grammar
import JobBoard.Proofs.Terminal.Colours
import JobBoard.Proofs.Settings
import JobBoard.Proofs.Dashboard.Statuses
import JobBoard.Proofs.Terminal.Columns
