import Blackwing.Lib.Bytes
import Blackwing.Lib.Call
import Blackwing.Lib.Loop
import Blackwing.Lib.Fifo
import Blackwing.Lib.Cbor
import Blackwing.Lib.Run
import Blackwing.Lib.SlidingWindow
import Blackwing.Lib.HashMap
import Blackwing.Lib.Index
import Blackwing.Protocol.Codec
import Blackwing.Protocol.Symmetric
import Blackwing.Protocol.Encryption
import Blackwing.Protocol.NonceUniqueness
import Blackwing.Protocol.Link
import Blackwing.Protocol.Stream
import Blackwing.Protocol.Channel
import Blackwing.Protocol.Forgery
import Blackwing.Protocol.ReplayFreedom
import Blackwing.Protocol.Scheduler
import Blackwing.Protocol.SchedulerRuns
import Blackwing.Protocol.SchedulerProgress
import Blackwing.Protocol.SchedulerFairness
import Blackwing.Protocol.Reliability
import Blackwing.Protocol.OrderedDelivery
import Blackwing.Protocol.ReliableDelivery
import Blackwing.Relay.Message
import Blackwing.Relay.Rendezvous
import Blackwing.Relay.Forwarding
import Blackwing.Relay.Server
import Blackwing.Relay.Client
import Blackwing.Relay.System
import Blackwing.Relay.Invariants
import Blackwing.Relay.Lifecycle
import Blackwing.Relay.Provenance
import Blackwing.Relay.Disclosure
import Blackwing.Relay.TokenIndex
import Blackwing.Relay.Replay
import Blackwing.Relay.Consent
import Blackwing.Session.Fragments
import Blackwing.Session.Reassembly
import Blackwing.Protocol.Message
import Blackwing.Session.Secure
import Blackwing.Session.Clipboard
import Blackwing.Lib.TokenBucket
import Blackwing.Relay.Bandwidth
import Blackwing.Relay.ExchangeTimeout
import Blackwing.Relay.Stability
import Blackwing.Lib.Interleave
import Blackwing.Relay.Interleaving
import Blackwing.Lib.Scan
import Blackwing.Transport.Cert
import Blackwing.Transport.Adapter
import Blackwing.Relay.Wire
import Blackwing.Relay.Polling
import Blackwing.Encoder.H264
import Blackwing.Lib.RefChain
import Blackwing.Encoder.Pipeline
import Blackwing.Lib.Effects
import Blackwing.Lib.Toggle
import Blackwing.Server.Input
import Blackwing.Server.Buttons
import Blackwing.Server.Cursor
import Blackwing.Protocol.WindowRule
import Blackwing.Relay.Blocklist
import Blackwing.Relay.Registry
import Blackwing.Relay.IntentCapacity
import Blackwing.Relay.Atomicity
import Blackwing.Transport.RelaySocket
import Blackwing.Lib.Ownership
import Blackwing.Protocol.Sessions
import Blackwing.Session.Shared
import Blackwing.Session.Lifetime
import Blackwing.Lib.Utf8
import Blackwing.Session.Establish
import Blackwing.Server.Envelope
import Blackwing.Protocol.WireGrammar
import Blackwing.Encoder.Wire
import Blackwing.Relay.Expiry
import Blackwing.Transport.SubjectKey
import Blackwing.Crypto.DeviceId
import Blackwing.Session.ReceiveBounds
import Blackwing.Protocol.SenderWindow
import Blackwing.Encoder.Conversion
import Blackwing.Encoder.RowStride
import Blackwing.Encoder.Planes
import Blackwing.Encoder.OddSizes
import Blackwing.Encoder.Refresh
import Blackwing.Lib.LookBack
import Blackwing.Server.RateLimit
import Blackwing.Capture.DirtyRects
import Blackwing.Clipboard.Poller
import Blackwing.Server.Crosshair
import Blackwing.Client.Blit
import Blackwing.Core.Pool
import Blackwing.Auth.Store
import Blackwing.Auth.Enrollment
import Blackwing.Core.SharedPool
import Blackwing.Lib.Duplex
import Blackwing.Lib.Queue
import Blackwing.Relay.Completion
import Blackwing.Session.Login
import Blackwing.Transport.IceSocket
import Blackwing.Server.Admission
import Blackwing.Capture.Thread
