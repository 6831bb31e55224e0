import Sisfila.Calls.Announcement
import Sisfila.Calls.Atomicity
import Sisfila.Calls.Blocks
import Sisfila.Calls.Clock
import Sisfila.Calls.Counters
import Sisfila.Calls.FirstCall
import Sisfila.Calls.History
import Sisfila.Calls.LeftBehind
import Sisfila.Calls.Lookups
import Sisfila.Calls.Marks
import Sisfila.Calls.MeanWait
import Sisfila.Calls.Measurement
import Sisfila.Calls.Reports
import Sisfila.Calls.Seating
import Sisfila.Calls.Statistics
import Sisfila.Calls.View
import Sisfila.Concurrency.Desks
import Sisfila.Concurrency.Enrolments
import Sisfila.Concurrency.Isolation
import Sisfila.Concurrency.LastSeat
import Sisfila.Concurrency.OneDesk
import Sisfila.Concurrency.Overrun
import Sisfila.Concurrency.Phases
import Sisfila.Concurrency.Positions
import Sisfila.Concurrency.Requests
import Sisfila.Concurrency.Screen
import Sisfila.Concurrency.Tickets
import Sisfila.Framework.Apart
import Sisfila.Framework.Counter
import Sisfila.Framework.Cursor
import Sisfila.Framework.Freshness
import Sisfila.Framework.Handover
import Sisfila.Framework.Interleaving
import Sisfila.Framework.Lanes
import Sisfila.Framework.Listed
import Sisfila.Framework.Numbered
import Sisfila.Framework.Program
import Sisfila.Framework.Protocol
import Sisfila.Framework.References
import Sisfila.Framework.Regex
import Sisfila.Framework.RelyGuarantee
import Sisfila.Framework.Reorder
import Sisfila.Framework.Runs
import Sisfila.Framework.StaleReads
import Sisfila.Framework.Table
import Sisfila.Import.Formandos
import Sisfila.Import.Guarantees
import Sisfila.Import.Lines
import Sisfila.Import.Loop
import Sisfila.Import.Membership
import Sisfila.Import.Patterns
import Sisfila.Import.Result
import Sisfila.Import.Scores
import Sisfila.Import.Transaction
import Sisfila.Model.Controllers
import Sisfila.Model.Importer
import Sisfila.Model.Models
import Sisfila.Model.Pages
import Sisfila.Model.Records
import Sisfila.Model.Resources
import Sisfila.Model.Routes
import Sisfila.Model.Schema
import Sisfila.Model.Scripts
import Sisfila.Model.Statements
import Sisfila.Queue.Answers
import Sisfila.Queue.Core
import Sisfila.Queue.Enrolment
import Sisfila.Queue.Estimates
import Sisfila.Queue.Execution
import Sisfila.Queue.FirstCome
import Sisfila.Queue.Groups
import Sisfila.Queue.NextVaga
import Sisfila.Queue.Notice
import Sisfila.Queue.Position
import Sisfila.Queue.PositionPage
import Sisfila.Queue.Refinement
import Sisfila.Queue.Run
import Sisfila.Queue.Steps
import Sisfila.Queue.WaitingList
import Sisfila.Routes.Access
import Sisfila.Routes.Effects
import Sisfila.Routes.Forms
import Sisfila.Routes.Integrity
import Sisfila.Routes.Lists
import Sisfila.Routes.Moves
import Sisfila.Routes.Reordering
import Sisfila.Routes.Seats
import Sisfila.Routes.Uniqueness
