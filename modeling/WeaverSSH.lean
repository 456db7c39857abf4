import WeaverSSH.ApiContract.Compatibility
import WeaverSSH.Framework.Action
import WeaverSSH.Framework.Base64
import WeaverSSH.Framework.Bytes
import WeaverSSH.Framework.Checks
import WeaverSSH.Framework.Clock
import WeaverSSH.Framework.Digest
import WeaverSSH.Framework.Effects
import WeaverSSH.Framework.FilePath
import WeaverSSH.Framework.Frames
import WeaverSSH.Framework.Hex
import WeaverSSH.Framework.HostTree
import WeaverSSH.Framework.Json
import WeaverSSH.Framework.JsonFields
import WeaverSSH.Framework.JsonRoundTrip
import WeaverSSH.Framework.Lines
import WeaverSSH.Framework.MerkleTree
import WeaverSSH.Framework.OrderedMap
import WeaverSSH.Framework.Renames
import WeaverSSH.Framework.ReplayCache
import WeaverSSH.Framework.Sha256
import WeaverSSH.Framework.Text
import WeaverSSH.Framework.Transition
import WeaverSSH.Framework.Utf8
import WeaverSSH.Guarantees.AtMostOnce
import WeaverSSH.Guarantees.AuditTrail
import WeaverSSH.Guarantees.ExecOutcomes
import WeaverSSH.Guarantees.HonestHops
import WeaverSSH.Guarantees.HopIntegrity
import WeaverSSH.Guarantees.HopReplay
import WeaverSSH.Guarantees.JournalHeads
import WeaverSSH.Guarantees.JournalRecovery
import WeaverSSH.Guarantees.Ladders
import WeaverSSH.Guarantees.LeaseRegistry
import WeaverSSH.Guarantees.LedgerIntegrity
import WeaverSSH.Guarantees.LinkIdentity
import WeaverSSH.Guarantees.MerkleSoundness
import WeaverSSH.Guarantees.MessageSize
import WeaverSSH.Guarantees.NodeFacts
import WeaverSSH.Guarantees.OpenDiscipline
import WeaverSSH.Guarantees.ReadOnly
import WeaverSSH.Guarantees.References
import WeaverSSH.Guarantees.Reload
import WeaverSSH.Guarantees.RemoteDelivery
import WeaverSSH.Guarantees.Resolvers
import WeaverSSH.Guarantees.Routing
import WeaverSSH.Guarantees.SequenceWindow
import WeaverSSH.Guarantees.SessionRegistry
import WeaverSSH.Guarantees.ShellWords
import WeaverSSH.Guarantees.SignedNodes
import WeaverSSH.Guarantees.Topics
import WeaverSSH.Guarantees.ViewDownload
import WeaverSSH.Guarantees.ViewInverse
import WeaverSSH.Guarantees.ViewListing
import WeaverSSH.Guarantees.ViewUpload
import WeaverSSH.Guarantees.X11Authorization
import WeaverSSH.Guarantees.X11Cookie
import WeaverSSH.Guarantees.X11Framing
import WeaverSSH.Guarantees.X11Setup
import WeaverSSH.MapReduce.Policy
import WeaverSSH.SessionExec.Policy
import WeaverSSH.SessionExec.Wire
import WeaverSSH.SessionExec.WireSpec
import WeaverSSH.SessionLink.Fencing
import WeaverSSH.SessionMux.Bounds
import WeaverSSH.SessionMux.Discipline
import WeaverSSH.Storage.Namespaces
import WeaverSSH.Vfs.Copy
import WeaverSSH.Vfs.Reference
import WeaverSSH.Vfs.Tree
import WeaverSSH.Vfs.View
import WeaverSSH.Vfs.ViewSpec
