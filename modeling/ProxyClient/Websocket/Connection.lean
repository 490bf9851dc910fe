import ProxyClient.Websocket.Pending

/-!
# One connection

`_connection.py`: a connection opens a socket, performs the signed handshake on it and
then relays frames. `open()` suspends three times (for the socket, for the handshake
frame to be sent, for the reply), and each suspension can end in failure.
-/

namespace ProxyClient.Websocket

/-- The socket under a connection, as `websockets` reports it. A closing socket still counts
as open, but sending on it raises `ConnectionClosed`. -/
inductive Sock
  | absent
  | live
  | closing
  | closed (clean : Bool)
  deriving DecidableEq

/-- The socket has been connected and is not closed yet. -/
def Sock.isOpen : Sock → Bool
  | live | closing => true
  | absent | closed _ => false

/-- A frame that was handed to the socket, with what it was sent for. -/
inductive Sent
  /-- The signed handshake frame. -/
  | auth
  /-- The frame of a `request()` or a ping, with the call that sent it. -/
  | call (k : ℕ) (frame : Fields)
  /-- A message of the public `send()`. -/
  | message (frame : Fields)
  deriving DecidableEq

/-- An entry of the subscription registry: a channel and its params. -/
abbrev Entry := String × Params

/-- A `_Connection`, its socket, and what has passed over the socket. -/
structure Connection where
  /-- The socket. -/
  sock : Sock := .absent
  /-- `_ws is not None`. -/
  attached : Bool := false
  /-- Frames that arrived, oldest first. -/
  received : List Inbound := []
  /-- Those of them that have not been read. -/
  inbox : List Inbound := []
  /-- Frames sent, oldest first. -/
  sent : List Sent := []
  /-- `connected_at`. -/
  connectedAt : Option ℚ := none
  /-- Frames offered to `resolve`, oldest first. -/
  resolved : List Inbound := []
  /-- The subscription registry at the time `open()` returned. -/
  registryAtOpen : List Entry := []

namespace Connection

/-- `is_open`: there is a socket, it was not given up, and its state is open. -/
def isOpen (c : Connection) : Bool :=
  c.attached && (c.sock = .live || c.sock = .closing)

/-- The socket is connected: `_ws` is set and usable. -/
def connect (c : Connection) : Connection := { c with sock := .live, attached := true }

/-- A frame arrives and waits in the inbox until it is read. -/
def receive (c : Connection) (f : Inbound) : Connection :=
  { c with received := c.received ++ [f], inbox := c.inbox ++ [f] }

/-- Hand a frame to the socket, which takes it while it is live. -/
def write (c : Connection) (frame : Sent) : Connection :=
  if c.sock = .live then { c with sent := c.sent ++ [frame] } else c

/-- The first half of `close()`: `ws.close()` starts the closing handshake. -/
def beginClose (c : Connection) : Connection :=
  if c.sock = .live then { c with sock := .closing } else c

/-- The end of `close()`: `_ws` is dropped. -/
def detach (c : Connection) : Connection := { c with attached := false }

/-- The second half of `close()`: `ws.close()` returned, so that the socket is closed. -/
def endClose (c : Connection) : Connection :=
  if c.sock = .live ∨ c.sock = .closing then { c with sock := .closed true, attached := false }
  else c.detach

/-- A frame that arrives goes to the end of the inbox. -/
@[simp] theorem inbox_receive (c : Connection) (f : Inbound) :
    (c.receive f).inbox = c.inbox ++ [f] := rfl

/-- It goes to the end of what was received. -/
@[simp] theorem received_receive (c : Connection) (f : Inbound) :
    (c.receive f).received = c.received ++ [f] := rfl

/-- A write is no receipt. -/
@[simp] theorem received_write (c : Connection) (frame : Sent) :
    (c.write frame).received = c.received := by
  unfold write
  split <;> rfl

/-- So a write leaves the inbox as it is. -/
@[simp] theorem inbox_write (c : Connection) (frame : Sent) :
    (c.write frame).inbox = c.inbox := by
  unfold write
  split <;> rfl

/-- It resolves nothing. -/
@[simp] theorem resolved_write (c : Connection) (frame : Sent) :
    (c.write frame).resolved = c.resolved := by
  unfold write
  split <;> rfl

/-- It does not detach the connection. -/
@[simp] theorem attached_write (c : Connection) (frame : Sent) :
    (c.write frame).attached = c.attached := by
  unfold write
  split <;> rfl

/-- It accepts no handshake. -/
@[simp] theorem connectedAt_write (c : Connection) (frame : Sent) :
    (c.write frame).connectedAt = c.connectedAt := by
  unfold write
  split <;> rfl

/-- Only a live socket takes a frame. -/
theorem mem_sent_write {c : Connection} {frame frame' : Sent}
    (h : frame' ∈ (c.write frame).sent) :
    frame' ∈ c.sent ∨ (frame' = frame ∧ c.sock = .live) := by
  unfold write at h
  split at h
  · rename_i hlive
    rcases List.mem_append.mp h with hold | hnew
    · exact .inl hold
    · exact .inr ⟨List.mem_singleton.mp hnew, hlive⟩
  · exact .inl h

/-- It neither opens nor closes the socket. -/
@[simp] theorem sock_write (c : Connection) (frame : Sent) : (c.write frame).sock = c.sock := by
  unfold write
  split <;> rfl

end Connection

/-- Where `open()` is suspended: in `connect`, in the send of the handshake, or in the wait for its
reply. -/
inductive OpenStage
  /-- In `websockets.connect`. -/
  | connecting
  /-- In `ws.send` of the handshake frame. -/
  | sendingAuth
  /-- In `wait_for(ws.recv(), timeout)`. -/
  | awaitingReply (deadline : ℚ)
  deriving DecidableEq

/-- `_authenticate` after `recv`: nothing is raised if the Proxy accepted the handshake. -/
def handshakeReply (raw : Raw) : Except Exc Unit :=
  match raw with
  | .undecodable text =>
    let text := String.ofList (text.toList.take 200)
    .error (.proxy (.unreachable s!"Non-JSON reply to the auth handshake: {text}"))
  | .unloadable => .error (.py .valueError)
  | .json (.obj reply) =>
    if Fields.get reply "event" = .str "auth" then .ok ()
    else
      .error (raiseFromResponse (Fields.getD reply "code" (.str "AUTH_FAILED"))
        (Fields.getD reply "message" (.str "the Proxy refused the WebSocket handshake"))
        .null (Fields.getD reply "request_id" (.str "")) none)
  | .json _ => .error (.py .attributeError)

end ProxyClient.Websocket
