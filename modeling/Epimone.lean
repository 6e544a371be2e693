import Epimone.Library.CircularWindow
import Epimone.Memory
import Epimone.Ring
import Epimone.RingRefinement
import Epimone.Daemon.State
import Epimone.Library.History
import Epimone.Library.Transition
import Epimone.Daemon.Connection
import Epimone.Daemon.Requests
import Epimone.Daemon.Events
import Epimone.Daemon.Loop
import Epimone.Daemon.Actions
import Epimone.Daemon.Effects
import Epimone.Daemon.Links
import Epimone.Daemon.Refinement
import Epimone.Daemon.Runs
import Epimone.Daemon.Attachment
import Epimone.Daemon.Membership
import Epimone.Daemon.Changes
import Epimone.Daemon.Groups
import Epimone.Daemon.Backlog
import Epimone.Daemon.Teardown
import Epimone.Daemon.Framing
import Epimone.Daemon.Replies
import Epimone.Decoders
import Epimone.DecoderSafety
import Epimone.Daemon.Reading
import Epimone.RoundTrip
import Epimone.Daemon.RequestCodec
import Epimone.Daemon.ReplyCodec
import Epimone.Daemon.Children
import Epimone.Daemon.EndOfFile
import Epimone.Daemon.Hangups
import Epimone.Client.Death
import Epimone.Daemon.Escalation
import Epimone.Client.Overview
import Epimone.Client.Pages
import Epimone.Client.Windows
import Epimone.Client.KillWindow
import Epimone.Daemon.Inbound
import Epimone.Daemon.Draining
import Epimone.Daemon.Independence
import Epimone.Daemon.Reclaim
import Epimone.Daemon.PtyInput
import Epimone.Daemon.InputStream
import Epimone.Daemon.InputRuns
import Epimone.Daemon.GroupList
import Epimone.Client.Saver
import Epimone.Daemon.Startup
import Epimone.Client.Procedures
import Epimone.Client.Instances
import Epimone.Client.Replacement
import Epimone.Client.SavedIds
import Epimone.Client.Restore
import Epimone.Client.Enrollment
import Epimone.Client.Adoption
import Epimone.Daemon.Blobs
import Epimone.Client.StoredLayouts
import Epimone.Client.Truncation
import Epimone.Client.Shortcuts
import Epimone.Client.Rebinding
import Epimone.Daemon.Dispatches
import Epimone.Daemon.BlobStore
import Epimone.Library.SplitTree
import Epimone.Library.Tiling
import Epimone.Library.LinkedTree
import Epimone.Client.SavedTrees
import Epimone.Client.BlobText
import Epimone.Client.Geometry
import Epimone.Client.Cards
import Epimone.Client.PaneTrees
import Epimone.Daemon.TailRead
import Epimone.Client.Relaunch
import Epimone.Client.ActiveTab
import Epimone.Client.Bridge
import Epimone.Client.SyncFailures
import Epimone.Library.FileTree
import Epimone.Daemon.Paths
import Epimone.Client.WinSize
import Epimone.Client.Zoom
import Epimone.Client.Thumbnails
import Epimone.Client.RenderChain
import Epimone.Client.Signatures
import Epimone.Daemon.OutputStream
import Epimone.Client.Blocking
import Epimone.Ctl.Attach
import Epimone.Daemon.Bare
import Epimone.Daemon.Chunking
import Epimone.Client.PaneContents
import Epimone.Client.Bell
import Epimone.Client.FocusDirection
import Epimone.Client.Spawning
import Epimone.Daemon.Bystanders
import Epimone.Daemon.Inertness
import Epimone.Client.Processes
import Epimone.Daemon.Answers
import Epimone.Daemon.Splices
import Epimone.Daemon.Abreast
