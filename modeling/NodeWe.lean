import NodeWe.ControlPlane.Store
import NodeWe.Json
import NodeWe.Digest
import NodeWe.ControlPlane.Render
import NodeWe.ControlPlane.Nodes
import NodeWe.ControlPlane.Tasks
import NodeWe.ControlPlane.Auth
import NodeWe.ControlPlane.Route
import NodeWe.ControlPlane.Effect
import NodeWe.ControlPlane.History
import NodeWe.ControlPlane.Isolation
import NodeWe.ControlPlane.LeastPrivilege
import NodeWe.ControlPlane.Outcome
import NodeWe.ControlPlane.Snapshot
import NodeWe.ControlPlane.Reload
import NodeWe.ControlPlane.Bearer
import NodeWe.ControlPlane.Runs
import NodeWe.ControlPlane.Lifecycle
import NodeWe.ControlPlane.Fencing
import NodeWe.ControlPlane.Requests
import NodeWe.ControlPlane.Revocation
import NodeWe.ControlPlane.Rotation
import NodeWe.JsonGrammar
import NodeWe.JsonReader
import NodeWe.JsonText
import NodeWe.ControlPlane.AuditChain
import NodeWe.ControlPlane.Fields
import NodeWe.AtomicFiles
import NodeWe.ControlPlane.AuditHistory
import NodeWe.ControlPlane.Disk
import NodeWe.ControlPlane.RoundTrip
import NodeWe.ControlPlane.Recovery
import NodeWe.ControlPlane.Durability
import NodeWe.ControlPlane.Idempotency
import NodeWe.HashChain
import NodeWe.ControlPlane.AuditBinding
import NodeWe.JsonCut
import NodeWe.JsonSyntax
import NodeWe.ControlPlane.Truncation
import NodeWe.Wire
import NodeWe.ControlPlane.Transport
import NodeWe.NodeRuntime.Transport
import NodeWe.ControlPlane.Delivery
import NodeWe.ControlPlane.AuditTrail
import NodeWe.Tickets
import NodeWe.ControlPlane.Approvals
import NodeWe.ControlPlane.Grants
import NodeWe.ControlPlane.Policy
import NodeWe.ControlPlane.Approvable
import NodeWe.ControlPlane.Representation
import NodeWe.ControlPlane.Confinement
import NodeWe.ControlPlane.Postgres
import NodeWe.Channel
import NodeWe.ControlPlane.TaskText
import NodeWe.NodeRuntime.Agent
import NodeWe.NodeRuntime.Exchange
import NodeWe.ControlPlane.Intake
import NodeWe.NodeRuntime.Upload
import NodeWe.ControlPlane.Failures
import NodeWe.ControlPlane.LeaseEnd
import NodeWe.ControlPlane.Paths
import NodeWe.Utf8
import NodeWe.UnixPath
import NodeWe.NodeRuntime.Scope
import NodeWe.NodeRuntime.Execute
import NodeWe.Cli.Task
import NodeWe.WorkQueue
import NodeWe.Cli.Group
import NodeWe.Backoff
import NodeWe.NodeRuntime.Reconnect
import NodeWe.ControlPlane.Backend
import NodeWe.ControlPlane.Sqlite
import NodeWe.Separators
import NodeWe.ControlPlane.Framing
import NodeWe.Bits
import NodeWe.SecureHash
import NodeWe.NodeRuntime.Digests
import NodeWe.Base64
import NodeWe.ControlPlane.Encodings
import NodeWe.ControlPlane.Oidc
import NodeWe.ControlPlane.Operators
import NodeWe.ControlPlane.AllowedPaths
import NodeWe.ControlPlane.Preview
import NodeWe.Paging
import NodeWe.ControlPlane.Pagination
import NodeWe.NodeRuntime.Batch
import NodeWe.Cli.Registry
import NodeWe.Cli.GroupRegistry
import NodeWe.Cli.Options
import NodeWe.Cli.Pipes
import NodeWe.NodeRuntime.Redaction
import NodeWe.NodeRuntime.Output
import NodeWe.NodeRuntime.Disclosure
import NodeWe.ControlPlane.PageParameters
import NodeWe.ControlPlane.HexText
import NodeWe.FileTree
import NodeWe.FileOpen
import NodeWe.NodeRuntime.Containment
import NodeWe.NodeRuntime.SecureOpen
import NodeWe.Cli.Labels
import NodeWe.Sdk.Envelope
