import RtspProxy.Theory.Framer
import RtspProxy.Theory.Bytes
import RtspProxy.Theory.Split
import RtspProxy.Theory.Params
import RtspProxy.Theory.Run
import RtspProxy.Theory.Encoding
import RtspProxy.Theory.Queue
import RtspProxy.Theory.Ownership
import RtspProxy.Theory.Registry
import RtspProxy.Theory.Looks
import RtspProxy.Theory.RWMutex
import RtspProxy.Wire.Message
import RtspProxy.Wire.ReadLoop
import RtspProxy.Wire.Response
import RtspProxy.Wire.Request
import RtspProxy.Wire.Limits
import RtspProxy.Wire.Body
import RtspProxy.Wire.Header
import RtspProxy.Wire.Text
import RtspProxy.Wire.FirstLine
import RtspProxy.Wire.Lookup
import RtspProxy.Wire.Framed
import RtspProxy.Lifecycle.State
import RtspProxy.Lifecycle.ConnectLoop
import RtspProxy.Lifecycle.System
import RtspProxy.Lifecycle.Start
import RtspProxy.Lifecycle.Stop
import RtspProxy.Lifecycle.Effect
import RtspProxy.Lifecycle.Readiness
import RtspProxy.Lifecycle.Idle
import RtspProxy.Lifecycle.Locking
import RtspProxy.Lifecycle.NilRemote
import RtspProxy.Lifecycle.Backoff
import RtspProxy.Lifecycle.Course
import RtspProxy.Lifecycle.Handover
import RtspProxy.Upstream.Digest
import RtspProxy.Upstream.Verify
import RtspProxy.Upstream.Patterns
import RtspProxy.Upstream.Recover
import RtspProxy.Upstream.Remote
import RtspProxy.Upstream.Effect
import RtspProxy.Upstream.Downgrade
import RtspProxy.Upstream.Pairing
import RtspProxy.Upstream.WireOrder
import RtspProxy.Upstream.Session
import RtspProxy.Upstream.Transports
import RtspProxy.Upstream.Period
import RtspProxy.Upstream.TransportHeader
import RtspProxy.Upstream.Reconnect
import RtspProxy.Upstream.Metadata
import RtspProxy.Upstream.Injection
import RtspProxy.Upstream.NonceCount
import RtspProxy.Upstream.Success
import RtspProxy.Upstream.Retries
import RtspProxy.Upstream.KeepAlive
import RtspProxy.Downstream.Client
import RtspProxy.Downstream.Framing
import RtspProxy.Downstream.FrameRead
import RtspProxy.Downstream.Setup
import RtspProxy.Downstream.Channels
import RtspProxy.Downstream.StreamManager
import RtspProxy.Downstream.Gauge
import RtspProxy.Downstream.Shutdown
import RtspProxy.Downstream.Resolve
import RtspProxy.Downstream.Describe
import RtspProxy.Downstream.Reply
import RtspProxy.Fanout.Model
import RtspProxy.Fanout.Effect
import RtspProxy.Fanout.Ownership
import RtspProxy.Fanout.Order
import RtspProxy.Fanout.Pool
import RtspProxy.Fanout.Shift
import RtspProxy.Fanout.Server
import RtspProxy.Fanout.Closing
import RtspProxy.Fanout.Ending
import RtspProxy.Fanout.Loss
import RtspProxy.Fanout.BackChannel
import RtspProxy.Fanout.Capacity
import RtspProxy.Fanout.Waiting
import RtspProxy.Fanout.Origin
import RtspProxy.Upstream.Outbound
import RtspProxy.Upstream.Solicited
import RtspProxy.Downstream.MediaPath
