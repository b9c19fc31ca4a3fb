import ModuleRig.Main
import ModuleRig.Proofs.Version.Order
import ModuleRig.Proofs.Cache.Freshness
import ModuleRig.Proofs.Coordinate.Layout
import ModuleRig.Proofs.Files.Frame
import ModuleRig.Proofs.Files.Entries
import ModuleRig.Proofs.Host.Steps
import ModuleRig.Proofs.Repository.Containment
import ModuleRig.Proofs.Files.Reading
import ModuleRig.Proofs.Files.Replacement
import ModuleRig.Proofs.Path.Ending
import ModuleRig.Proofs.Repository.Answers
import ModuleRig.Proofs.Repository.Newest
import ModuleRig.Proofs.Cache.Saving
import ModuleRig.Proofs.Coordinate.Key
import ModuleRig.Proofs.Cache.Validity
import ModuleRig.Proofs.Json.Printing
import ModuleRig.Proofs.Text.Utf8
import ModuleRig.Proofs.Cache.IndexText
import ModuleRig.Proofs.Cache.Restart
import ModuleRig.Proofs.Cache.Failure
import ModuleRig.Proofs.Report.Verdict
import ModuleRig.Proofs.Module.Flags
import ModuleRig.Proofs.Module.Grants
import ModuleRig.Proofs.Task.Run
import ModuleRig.Proofs.Task.Calls
import ModuleRig.Proofs.Text.Lines
import ModuleRig.Proofs.Text.Front
import ModuleRig.Proofs.Text.Escape
import ModuleRig.Proofs.Command.Levels
import ModuleRig.Proofs.Command.InFront
import ModuleRig.Proofs.Task.Stranded
import ModuleRig.Proofs.Session.SetUp
import ModuleRig.Proofs.Session.Launches
import ModuleRig.Proofs.Repository.Twice
import ModuleRig.Proofs.Session.Resolutions
import ModuleRig.Proofs.Session.Offline
import ModuleRig.Proofs.Session.Repetition
import ModuleRig.Proofs.Session.OfflineAgain
import ModuleRig.Proofs.Files.Interruption
import ModuleRig.Proofs.Cache.Interruption
import ModuleRig.Proofs.Settings.Validation
import ModuleRig.Proofs.Session.Tasks
import ModuleRig.Proofs.Command.Verbatim
import ModuleRig.Proofs.Session.Child
import ModuleRig.Proofs.Version.Ladder
import ModuleRig.Proofs.Coordinate.RoundTrip
import ModuleRig.Proofs.Version.Respelling
import ModuleRig.Proofs.Version.Numeric
import ModuleRig.Proofs.Repository.Listing
import ModuleRig.Proofs.Web.Replies
import ModuleRig.Proofs.Repository.Downloads
import ModuleRig.Proofs.Repository.Requests
import ModuleRig.Proofs.Files.Repetition
import ModuleRig.Proofs.Cache.RoundTrip
import ModuleRig.Proofs.Report.Duration
import ModuleRig.Proofs.Report.FinalBlock
import ModuleRig.Proofs.Report.LastLines
import ModuleRig.Proofs.Text.WholeLines
import ModuleRig.Proofs.Repository.Metadata
import ModuleRig.Proofs.Module.Exact
import ModuleRig.Proofs.Task.Classpath
import ModuleRig.Proofs.Version.Notation
import ModuleRig.Proofs.Command.Reader
import ModuleRig.Proofs.Command.Written
import ModuleRig.Proofs.Command.Placement
import ModuleRig.Proofs.Module.ReadBack
import ModuleRig.Proofs.Task.WaitStatus
import ModuleRig.Proofs.Session.ExitCode
import ModuleRig.Proofs.Cache.Kept
import ModuleRig.Proofs.Settings.Launcher
import ModuleRig.Proofs.Session.Apart
