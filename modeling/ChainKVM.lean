import ChainKVM.Robot.DeadMan
import ChainKVM.Robot.Caching
import ChainKVM.Gateway.Finality
import ChainKVM.Robot.Isolation
import ChainKVM.Robot.Interleave
import ChainKVM.Gateway.Grant
import ChainKVM.Gateway.Revoke
import ChainKVM.Gateway.Exchange
import ChainKVM.Gateway.Validity
import ChainKVM.Gateway.RevocationStore
import ChainKVM.Gateway.Rooms
import ChainKVM.Robot.Expiry
import ChainKVM.Robot.Recovery
import ChainKVM.Console.Signaling
import ChainKVM.Gateway.Server
import ChainKVM.Robot.Signaling
import ChainKVM.Gateway.Jwks
import ChainKVM.Robot.Jwks
import ChainKVM.Gateway.Notice
import ChainKVM.System.Interop
import ChainKVM.System.Revocation
import ChainKVM.System.RoundTrip
import ChainKVM.Robot.Restart
import ChainKVM.Lib.TokenBucket
import ChainKVM.Robot.RateLimiter
import ChainKVM.Robot.RateLimit
import ChainKVM.Gateway.Context
import ChainKVM.Gateway.Actions
import ChainKVM.Robot.Wire
import ChainKVM.Robot.Dispatch
import ChainKVM.Robot.EStop
import ChainKVM.Robot.FrameStreams
import ChainKVM.Robot.Freshness
import ChainKVM.Gateway.Uncaught
import ChainKVM.Lib.Window
import ChainKVM.Robot.Invalid
import ChainKVM.Robot.Allowance
import ChainKVM.Robot.Claims
import ChainKVM.Robot.Rotation
import ChainKVM.Gateway.Combined
import ChainKVM.Gateway.PolicyStore
import ChainKVM.Gateway.Versions
import ChainKVM.Lib.Doubles
import ChainKVM.Lib.NumberText
import ChainKVM.Lib.JsonText
import ChainKVM.Gateway.PolicyHash
import ChainKVM.Gateway.PolicyValidator
import ChainKVM.Gateway.Satisfiable
import ChainKVM.Gateway.Extraction
import ChainKVM.Gateway.Verification
import ChainKVM.Gateway.Resolver
import ChainKVM.Gateway.CacheBound
import ChainKVM.Gateway.ExpiryMonitor
import ChainKVM.Gateway.Atomic
import ChainKVM.Console.Keyboard
import ChainKVM.Lib.Ranks
import ChainKVM.Lib.Recent
import ChainKVM.Robot.Collectors
import ChainKVM.Robot.Reports
import ChainKVM.Robot.Measurement
import ChainKVM.Robot.Capture
import ChainKVM.Lib.Indices
import ChainKVM.Gateway.Audit
import ChainKVM.Console.Mouse
import ChainKVM.Console.FrameTimestamps
import ChainKVM.Console.VideoLatency
import ChainKVM.Console.Reconnect
import ChainKVM.Console.WebRTC
import ChainKVM.Lib.Ledger
import ChainKVM.Robot.ControlRTT
import ChainKVM.Gateway.Approval
import ChainKVM.Gateway.Startup
import ChainKVM.Lib.Observer
import ChainKVM.Lib.Permits
import ChainKVM.Lib.Rely
import ChainKVM.Robot.Connection
import ChainKVM.Robot.Observers
import ChainKVM.System.Authority
import ChainKVM.System.Keyless
import ChainKVM.System.Operators
import ChainKVM.Gateway.Authority
import ChainKVM.Gateway.Cache
import ChainKVM.Gateway.Credential
import ChainKVM.Gateway.DidKey
import ChainKVM.Gateway.Evaluation
import ChainKVM.Gateway.KeyBytes
import ChainKVM.Gateway.Policy
import ChainKVM.Gateway.Revocations
import ChainKVM.Gateway.Sample
import ChainKVM.Gateway.SessionPolicy
import ChainKVM.Gateway.Sessions
import ChainKVM.Gateway.Signaling
import ChainKVM.Gateway.Tokens
import ChainKVM.Lib.Base58
import ChainKVM.Lib.Gaps
import ChainKVM.Lib.Grants
import ChainKVM.Lib.Js
import ChainKVM.Lib.Json
import ChainKVM.Lib.Machine
import ChainKVM.Lib.OrdMap
import ChainKVM.Lib.Prog
import ChainKVM.Lib.SharedLog
import ChainKVM.Lib.Varint
import ChainKVM.Robot.Agent
import ChainKVM.Robot.Effects
import ChainKVM.Robot.Handler
import ChainKVM.Robot.Manager
import ChainKVM.Robot.Metrics
import ChainKVM.Robot.Monitor
import ChainKVM.Robot.Protocol
import ChainKVM.Robot.Provenance
import ChainKVM.Robot.SafeStop
import ChainKVM.Robot.Sample
import ChainKVM.Robot.Statistics
import ChainKVM.Robot.Tasks
import ChainKVM.Robot.Token
import ChainKVM.Robot.Transport
import ChainKVM.Robot.Validator
import ChainKVM.Console.SignalingSocket
import ChainKVM.Gateway.RevocationFile
import ChainKVM.Robot.Encoder
import ChainKVM.Robot.TimestampSender
import ChainKVM.System.VideoTiming
