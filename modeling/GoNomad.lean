import GoNomad.Lib.BigEndian
import GoNomad.Lib.PrefixCode
import GoNomad.Lib.Run
import GoNomad.Lib.CreditChannel
import GoNomad.Lib.CreditInvariant
import GoNomad.Lib.Semaphore
import GoNomad.Proto.Frame
import GoNomad.Transport.Error
import GoNomad.Transport.Mux
import GoNomad.Transport.Link
import GoNomad.Transport.View
import GoNomad.Transport.Wellformed
import GoNomad.Transport.Simulation
import GoNomad.Transport.Delivery
import GoNomad.Transport.Arrival
import GoNomad.Transport.Invariant
import GoNomad.Transport.Histories
import GoNomad.Transport.Conforming
import GoNomad.Transport.Credit
import GoNomad.Transport.Wrap
import GoNomad.Transport.Ordered
import GoNomad.Transport.Wire
import GoNomad.Transport.WireRefines
import GoNomad.Transport.Reliable
import GoNomad.Proto.Streaming
import GoNomad.Transport.Quic
import GoNomad.Lib.Hex
import GoNomad.Lib.TokenBucket
import GoNomad.Policy.RateLimit
import GoNomad.Lib.Cbor
import GoNomad.Policy.RateBound
import GoNomad.Lib.HashChain
import GoNomad.Store.Error
import GoNomad.Store.Canonical
import GoNomad.Lib.Table
import GoNomad.Store.Audit
import GoNomad.Store.AuditRows
import GoNomad.Store.AuditChain
import GoNomad.Store.AuditHistory
import GoNomad.Store.AuditRun
import GoNomad.Store.AuditTamper
import GoNomad.Lib.UnixFs
import GoNomad.Policy.PathGuard
import GoNomad.Policy.PathContain
import GoNomad.Policy.Denylist
import GoNomad.Policy.Engine
import GoNomad.Core.Ticket
import GoNomad.Store.Devices
import GoNomad.Server.Revocation
import GoNomad.Policy.RateHeld
import GoNomad.Store.AuditAnchor
import GoNomad.Store.AuditOrder
import GoNomad.Store.AuditForgery
import GoNomad.Policy.PathOracle
import GoNomad.Proto.Control
import GoNomad.Server.Router
import GoNomad.Server.PairingInert
import GoNomad.Core.PairingWindow
import GoNomad.Server.Pairing
import GoNomad.Server.PairingRun
import GoNomad.Server.Grants
import GoNomad.Lib.UnixWalk
import GoNomad.Policy.PathSecrets
import GoNomad.Server.Connection
import GoNomad.Transport.Changes
import GoNomad.Transport.Checked
import GoNomad.Transport.Hostile
import GoNomad.Transport.Pinned
import GoNomad.Lib.Transaction
import GoNomad.Store.Migrations
import GoNomad.Store.MigrationRace
import GoNomad.Store.DeviceTables
import GoNomad.Lib.BoundedQueue
import GoNomad.Transport.AcceptQueue
import GoNomad.Client.ControlSend
import GoNomad.Client.Session
import GoNomad.Client.Correlation
import GoNomad.Client.Inner
import GoNomad.Client.Tasks
import GoNomad.Client.TearDown
import GoNomad.Client.StreamEnd
import GoNomad.Client.Record
import GoNomad.Client.Restart
import GoNomad.Proto.ControlCbor
import GoNomad.Server.Answers
import GoNomad.Store.CanonicalBytes
import GoNomad.Lib.Accrual
import GoNomad.Policy.RateRefill
import GoNomad.Policy.RateWait
import GoNomad.Store.AuditRotation
import GoNomad.Store.AuditDevice
import GoNomad.Server.FsService
import GoNomad.Server.FsRead
import GoNomad.Server.FsList
import GoNomad.Lib.RoundRobin
import GoNomad.Transport.WriterFair
import GoNomad.Transport.Cancelled
import GoNomad.Core.ManualCode
import GoNomad.Lib.Glob
import GoNomad.Policy.SecretNames
import GoNomad.Server.FsOpen
import GoNomad.Server.PtyManager
import GoNomad.Server.PtyProcesses
import GoNomad.Server.PtySpawn
import GoNomad.Client.Reporting
import GoNomad.Client.Pollers
import GoNomad.Policy.RateRefused
import GoNomad.Transport.AddrHint
import GoNomad.Client.Reconnect
import GoNomad.Agreement.Pairing
import GoNomad.Transport.Finished
import GoNomad.Lib.CborTree
import GoNomad.Lib.CborRecord
import GoNomad.Proto.Decode
import GoNomad.Proto.RoundTrip
import GoNomad.Proto.MethodCall
import GoNomad.Server.Perform
import GoNomad.Client.Call
import GoNomad.Agreement.Calls
import GoNomad.Agreement.CallStreams
import GoNomad.Store.Notifications
import GoNomad.Lib.AtomicFile
import GoNomad.Client.Storage
import GoNomad.Store.Backups
import GoNomad.Agreement.KnownKey
import GoNomad.Transport.Handshake
import GoNomad.Transport.Greeting
import GoNomad.Client.Asking
import GoNomad.Server.PairingAdmits
import GoNomad.Agreement.Rungs
import GoNomad.Agreement.Advance
import GoNomad.Agreement.Completion
import GoNomad.App.FilesViewModel
