import LogWatch.Harness
import LogWatch.Listener.Pause
import LogWatch.LogFile.Fixed
import LogWatch.Yaml.Settings
import LogWatch.Proofs.Event.Circuit
import LogWatch.Proofs.Event.Progress
import LogWatch.Proofs.Request.Ledger
import LogWatch.Proofs.Request.Lone
import LogWatch.Proofs.LogFile.Scan
import LogWatch.Proofs.Request.Shown
import LogWatch.Proofs.Request.Closing
import LogWatch.Proofs.Listener.World
import LogWatch.Proofs.Listener.Turn
import LogWatch.Proofs.Listener.AppendOnly
import LogWatch.Proofs.Listener.Ending
import LogWatch.Proofs.Listener.Chapters
import LogWatch.Proofs.Listener.Rotation
import LogWatch.Proofs.Request.Fate
import LogWatch.Proofs.Request.Books
import LogWatch.Proofs.Request.Accounts
import LogWatch.Proofs.Request.Cell
import LogWatch.Proofs.Listener.Waking
import LogWatch.Proofs.Listener.Replay
import LogWatch.Proofs.Disk.Removal
import LogWatch.Proofs.Node.Processes
import LogWatch.Proofs.Node.Call
import LogWatch.Proofs.Node.Company
import LogWatch.Proofs.Node.Turns
import LogWatch.Proofs.Node.Alone
import LogWatch.Proofs.Harness.Call
import LogWatch.Proofs.Harness.Site
import LogWatch.Proofs.Harness.Seats
import LogWatch.Proofs.Harness.Slot
import LogWatch.Proofs.Harness.Lifetime
import LogWatch.Proofs.Harness.Alone
import LogWatch.Proofs.LogFile.Chunks
import LogWatch.Proofs.Listener.Reattaching
import LogWatch.Proofs.Disk.Creation
import LogWatch.Proofs.Node.LogName
import LogWatch.Proofs.Node.Freshness
import LogWatch.Proofs.Yaml.Style
import LogWatch.Proofs.Yaml.Scalar
import LogWatch.Proofs.Yaml.Quoted
import LogWatch.Proofs.Yaml.Block
import LogWatch.Proofs.Yaml.Lines
import LogWatch.Proofs.Yaml.Scanning
import LogWatch.Proofs.Yaml.Structure
import LogWatch.Proofs.Yaml.Nodes
import LogWatch.Proofs.Yaml.Fields
import LogWatch.Proofs.Yaml.Survival
import LogWatch.Proofs.Request.Skipped
import LogWatch.Proofs.Request.Pending
import LogWatch.Proofs.Listener.Positions
import LogWatch.Proofs.Text.Quoted
import LogWatch.Proofs.Text.Utf8
import LogWatch.Proofs.Event.Display
import LogWatch.Proofs.LogFile.Damage
import LogWatch.Proofs.Text.Filling
import LogWatch.Proofs.Listener.Templates
import LogWatch.Proofs.Event.Layout
import LogWatch.Proofs.Node.Signals
