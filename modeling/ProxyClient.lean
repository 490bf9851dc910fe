import ProxyClient.Run
import ProxyClient.Future
import ProxyClient.Json
import ProxyClient.HandleResponse
import ProxyClient.Reporting
import ProxyClient.Signing
import ProxyClient.Websocket.Calls
import ProxyClient.Websocket.Client
import ProxyClient.Websocket.Step
import ProxyClient.Websocket.Moves
import ProxyClient.Websocket.Decompose
import ProxyClient.Websocket.Correlator
import ProxyClient.Websocket.Reachable
import ProxyClient.Websocket.Correlation
import ProxyClient.Websocket.Inline
import ProxyClient.Websocket.Delivery
import ProxyClient.ErrorParity
import ProxyClient.Websocket.Setup
import ProxyClient.Websocket.Pings
import ProxyClient.Topics
import ProxyClient.Websocket.Replay
import ProxyClient.Websocket.Inbox
import ProxyClient.Websocket.ReadLoop
import ProxyClient.Websocket.Backoff
import ProxyClient.Websocket.Supervise
import ProxyClient.Websocket.Lifecycle
import ProxyClient.Websocket.Announced
import ProxyClient.Websocket.Attempts
import ProxyClient.Websocket.Generations
import ProxyClient.Websocket.Sockets
import ProxyClient.Websocket.Shutdown
import ProxyClient.Websocket.Handshake
import ProxyClient.Delimited
import ProxyClient.JsonText
import ProxyClient.ResponseParity
import ProxyClient.Websocket.Startup
import ProxyClient.Websocket.Refusals
import ProxyClient.Multimap
import ProxyClient.Websocket.Handlers
import ProxyClient.Websocket.Openings
import ProxyClient.Websocket.Wire
import ProxyClient.Websocket.OrderKeys
import ProxyClient.Fair
import ProxyClient.Websocket.Progress
import ProxyClient.Websocket.Deadlines
import ProxyClient.Websocket.Heartbeat
import ProxyClient.JsonRead
import ProxyClient.Payloads
import ProxyClient.Websocket.Pacing
import ProxyClient.Websocket.Reconnects
import ProxyClient.Websocket.Calm
import ProxyClient.Websocket.Unwinding
import ProxyClient.Websocket.Watch
