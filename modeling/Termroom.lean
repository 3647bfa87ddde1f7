import Termroom.Conc.Run
import Termroom.Node.Stream
import Termroom.Node.Agent
import Termroom.Node.Connection
import Termroom.Node.Credit
import Termroom.Node.Dispatch
import Termroom.Node.Geometry
import Termroom.Node.Launch
import Termroom.Conc.Pool
import Termroom.RemoteRun.Ops
import Termroom.RemoteRun.Manager
import Termroom.RemoteRun.Footprint
import Termroom.RemoteRun.Lifecycle
import Termroom.RemoteRun.Play
import Termroom.RemoteRun.Stop
import Termroom.RemoteRun.Delete
import Termroom.RemoteRun.Ending
import Termroom.RemoteRun.Upload
import Termroom.Store.FileRuns
import Termroom.Store.Activity
import Termroom.RemoteRun.Observe
import Termroom.FileRuns.Start
import Termroom.Archive.Materialize
import Termroom.Archive.Admission
import Termroom.Archive.Structure
import Termroom.Store.Terminals
import Termroom.Sources.Snapshot
import Termroom.Sources.Links
import Termroom.Sources.Baseline
import Termroom.Files.Preview
import Termroom.RemoteRun.Log
import Termroom.Sources.Stream
import Termroom.Terminal.Skipped
import Termroom.Node.Closing
import Termroom.Node.Registry
import Termroom.Store.Pairing
import Termroom.Ssh.Pool
import Termroom.Store.Reads
import Termroom.Store.Notifications
import Termroom.Node.Upload
import Termroom.Archive.Protocol
import Termroom.Collect.Tree
import Termroom.Collect.Plan
import Termroom.Collect.Merge
import Termroom.Collect.Apply
import Termroom.Terminal.Sockets
import Termroom.Files.Search
import Termroom.Files.Uploads
import Termroom.Store.Commands
import Termroom.Terminal.CommandRecords
import Termroom.Ssh.CommandWindows
import Termroom.Ssh.KnownHosts
import Termroom.Terminal.Usage
import Termroom.Files.Paging
import Termroom.Files.Recent
import Termroom.Files.Editor
import Termroom.Web.Limiters
import Termroom.Store.SessionName
import Termroom.Terminal.WindowRecords
import Termroom.Web.Compression
import Termroom.Ssh.Recovery
import Termroom.Data.Lru
import Termroom.Terminal.UsageCache
import Termroom.Data.Base64
import Termroom.Node.Wire
import Termroom.Node.Handshake
