import ProxyClient.Websocket.Client

/-!
# The transition function

Each label is one thing that can happen next: the network or the server acts, a timer
expires, the application calls a method, or a task is resumed at its suspension point.
The label chooses which of the enabled things happens, so that the runs of `step` are
the interleavings of all tasks with all behaviours of the server and the application.
-/

namespace ProxyClient.Websocket

/-- How a callback of the application ends. -/
inductive CallbackResult
  | returned
  /-- An `Exception`: it goes to `on_error`, whose own exceptions are logged. -/
  | raised
  /-- A `CancelledError`, which is no `Exception`. -/
  | cancelled
  deriving DecidableEq

/-- One thing that can happen next: time passes, the network or the application does something, or
the event loop resumes a task or a call. -/
inductive Event
  /-- Time passes. -/
  | tick (d : ℚ)
  -- the network and the server
  | frame (c : ℕ) (f : Inbound)
  | sockClosing (c : ℕ)
  | sockClosed (c : ℕ) (clean : Bool)
  -- `open()` of a task
  | connected (τ : ℕ)
  | connectFailed (τ : ℕ)
  | authSent (τ : ℕ)
  | authSendFailed (τ : ℕ)
  | authReply (τ : ℕ)
  | authTimeout (τ : ℕ)
  | authClosed (τ : ℕ)
  -- the public methods
  | start
  | cancelStart (τ : ℕ)
  | stop
  | call (op : Operation)
  | send (message : Fields)
  | addHandler (channel : String) (h : ℕ)
  | removeHandler (channel : String) (h : ℕ)
  | clearHandlers (channel : Option String)
  -- calls in flight
  | sent (k : ℕ)
  | sendFailed (k : ℕ)
  | resume (k : ℕ)
  | timeout (k : ℕ)
  | cancel (k : ℕ)
  -- the background tasks and `stop()`
  | run (τ : ℕ)
  | recv (τ : ℕ)
  | socketEnd (τ : ℕ)
  | callbackCall (τ : ℕ) (op : Operation)
  | callbackEnd (τ : ℕ) (result : CallbackResult)
  | wake (τ : ℕ)
  | closeDone (τ : ℕ)
  | stopStep (τ : ℕ)
  | deliverCancel (τ : ℕ)
  deriving DecidableEq

namespace World

/-- `start()` up to its first suspension; on a running client it raises `RuntimeError`. -/
def beginStart (w : World) : World :=
  if w.running then w
  else
    let c := w.conns.length
    { w with running := true, shutdown := false, conns := w.conns ++ [({} : Connection)],
             conn := some c }.spawn (.start c .connecting)

/-- One step of `open()`, from one of its suspension points to the next one or out of it. -/
def openStep (cfg : Config) (w : World) (τ : ℕ) (e : Event) : Option World :=
  match w.opening? τ, e with
  | some (c, .connecting), .connected _ =>
    some ((w.modifyConn c (fun conn => conn.connect.write .auth)).setStage τ .sendingAuth)
  | some (_, .connecting), .connectFailed _ => some (w.openFailed cfg τ)
  | some (c, .sendingAuth), .authSent _ =>
    if w.sock c = .live then
      if w.readByOther τ c then some (w.openFailed cfg τ)
      else some (w.setStage τ (.awaitingReply (w.now + cfg.timeout)))
    else none
  | some (c, .sendingAuth), .authSendFailed _ =>
    if w.sock c = .live then none else some (w.openFailed cfg τ)
  | some (c, .awaitingReply _), .authReply _ =>
    match w.conns[c]?.map Connection.inbox with
    | some (f :: inbox) =>
      let w := w.modifyConn c (fun conn => { conn with inbox := inbox })
      match handshakeReply f.raw with
      | .ok _ => some (w.opened cfg τ c)
      | .error _ => some (w.openFailed cfg τ)
    | _ => none
  | some (_, .awaitingReply deadline), .authTimeout _ =>
    if deadline ≤ w.now then some (w.openFailed cfg τ) else none
  | some (c, .awaitingReply _), .authClosed _ =>
    match w.sock c with
    | .closed _ => some (w.openFailed cfg τ)
    | _ => none
  | _, _ => none

/-- Whether the task that awaits a call can take a step of its own. -/
def ownerFree (w : World) : Owner → Bool
  | .application => true
  | .callback τ | .replay τ | .heartbeat τ => !w.isCancelled τ

/-- One step of a call in flight. -/
def callStep (cfg : Config) (w : World) (k : ℕ) (e : Event) : Option World :=
  match w.rpc.calls[k]? with
  | none => none
  | some call =>
    if w.ownerFree call.owner then
      match call.phase, e with
      | .sending, .sent _ =>
        if (call.conn.map w.sock) = some .live then
          some { w with rpc := w.rpc.await k (w.now + call.timeout) }
        else none
      | .sending, .sendFailed _ =>
        if (call.conn.map w.sock) = some .live then none
        else some (w.conclude cfg k (.raised (.py .connectionClosed)))
      | .waiting _, .resume _ =>
        match w.rpc.future k with
        | some (.result f) => some (w.conclude cfg k (.reply f))
        | some (.exception exc) => some (w.conclude cfg k (.raised exc))
        | some .cancelled => some (w.conclude cfg k (.raised .cancelledError))
        | _ => none
      | .waiting deadline, .timeout _ =>
        -- a future that is done is no longer subject to the timeout of `wait_for`
        if deadline ≤ w.now ∧ w.rpc.future k = some .pending then
          some (w.conclude cfg k (.raised .timeoutError))
        else none
      | .ended _, _ => none
      | _, .cancel _ =>
        if call.owner = .application then some (w.conclude cfg k (.raised .cancelledError))
        else none
      | _, _ => none
    else none

/-- `recv` returns the next frame to the pump. -/
def recvStep (cfg : Config) (w : World) (σ : ℕ) : Option World :=
  match w.body σ with
  | .supervise attempt (.reading c) =>
    match w.conns[c]?.map Connection.inbox with
    | some (f :: inbox) =>
      let w := w.modifyConn c (fun conn => { conn with inbox := inbox })
      if w.running then
        match f.raw with
        | .undecodable _ => some w
        | .unloadable => some (w.pumpReturned cfg σ attempt (some (.py .valueError)))
        | .json _ => some (w.setBody σ (.supervise attempt (.inCallback c f .onMessage)))
      else some (w.pumpReturned cfg σ attempt none)
    | _ => none
  | _ => none

/-- The pump notices that the socket is closed. -/
def socketEndStep (cfg : Config) (w : World) (σ : ℕ) : Option World :=
  match w.body σ with
  | .supervise attempt (.reading c) =>
    match w.sock c with
    | .closed true => some (w.pumpReturned cfg σ attempt none)
    | .closed false => some (w.pumpReturned cfg σ attempt (some (.py .connectionClosed)))
    | _ => none
  | _ => none

/-- A callback awaits a call of its own client. A call that raises at once leaves the
callback running. -/
def callbackCallStep (cfg : Config) (w : World) (σ : ℕ) (op : Operation) : Option World :=
  match w.body σ with
  | .supervise attempt (.inCallback c f cb) =>
    match w.perform cfg (.callback σ) op with
    | (w, some k) => some (w.setBody σ (.supervise attempt (.inCallbackCall c f cb k)))
    | (w, none) => some w
  | _ => none

/-- A callback ends and the dispatch goes on. -/
def callbackEndStep (cfg : Config) (w : World) (σ : ℕ) (result : CallbackResult) :
    Option World :=
  match w.body σ with
  | .supervise attempt (.inCallback c f cb) =>
    match result, cb with
    | .cancelled, _ => some (w.pumpReturned cfg σ attempt none)
    | _, .onMessage => some (w.dispatch cfg σ attempt c f)
    | _, .handler _ rest wildcard => some (w.runHandlers cfg σ attempt c f rest wildcard)
  | _ => none

/-- The first step of a task, from its creation to its first suspension point. -/
def runStep (cfg : Config) (w : World) (τ : ℕ) : Option World :=
  match w.body τ with
  | .supervise attempt .ready => some (w.beginPump cfg τ attempt)
  | .heartbeat .ready => some (w.heartbeatLoop cfg τ)
  | _ => none

/-- A sleep of a task is over. -/
def wakeStep (cfg : Config) (w : World) (τ : ℕ) : Option World :=
  match w.body τ with
  | .supervise attempt (.backingOff wake) =>
    if wake ≤ w.now then
      if w.running then some (w.beginReconnect τ attempt) else some (w.finish τ)
    else none
  | .supervise attempt (.replayGap wake rest) =>
    if wake ≤ w.now then some (w.replayNext cfg τ attempt rest) else none
  | .heartbeat (.sleeping wake) => if wake ≤ w.now then some (w.heartbeatPing cfg τ) else none
  | .heartbeat (.resting wake) => if wake ≤ w.now then some (w.heartbeatLoop cfg τ) else none
  | _ => none

/-- `ws.close()` returns, to the heartbeat or to `stop()`. -/
def closeDoneStep (cfg : Config) (w : World) (τ : ℕ) : Option World :=
  match w.body τ with
  | .heartbeat (.closing c) => some ((w.modifyConn c Connection.endClose).heartbeatLoop cfg τ)
  | .stop (.closing c) => some ((w.modifyConn c Connection.endClose).stopFinish τ)
  | _ => none

/-- A task that `stop()` awaits has ended. -/
def stopStep (w : World) (τ : ℕ) : Option World :=
  match w.body τ with
  | .stop (.awaitingSupervise σ heartbeat) =>
    if w.alive σ then none else some (w.stopHeartbeat τ heartbeat)
  | .stop (.awaitingHeartbeat η) => if w.alive η then none else some (w.stopClose τ)
  | _ => none

/-- A `CancelledError` is thrown into a task at its suspension point. -/
def cancelStep (cfg : Config) (w : World) (τ : ℕ) : Option World :=
  match w.body τ with
  | .supervise attempt (.reading _) => some (w.pumpReturned cfg τ attempt none)
  | .supervise attempt (.inCallback c f cb) =>
    -- the callback sees it, and how it ends is up to the callback
    some (w.setBody τ (.supervise attempt (.inCallback c f cb)))
  | .supervise attempt (.inCallbackCall c f cb k) =>
    some ((w.endCall cfg k (.raised .cancelledError)).setBody τ
      (.supervise attempt (.inCallback c f cb)))
  | .supervise _ (.replaying k _) => some ((w.endCall cfg k (.raised .cancelledError)).finish τ)
  | .heartbeat (.pinging k _) => some ((w.endCall cfg k (.raised .cancelledError)).finish τ)
  | .supervise _ _ | .heartbeat _ => some (w.finish τ)
  | _ => none

end World

open World

/-- The transition function of the client in its environment. -/
def step (cfg : Config) (w : World) (e : Event) : Option World :=
  match e with
  | .tick d => if 0 ≤ d then some { w with now := w.now + d } else none
  | .frame c f =>
    if w.sock c = .live then
      some (w.modifyConn c (·.receive f))
    else none
  | .sockClosing c => some (w.modifyConn c Connection.beginClose)
  | .sockClosed c clean =>
    if w.sock c = .live ∨ w.sock c = .closing then
      some (w.modifyConn c (fun conn => { conn with sock := .closed clean }))
    else none
  | .connected τ | .connectFailed τ | .authSent τ | .authSendFailed τ | .authReply τ
  | .authTimeout τ | .authClosed τ => if w.isCancelled τ then none else w.openStep cfg τ e
  | .start => some w.beginStart
  | .cancelStart τ =>
    match w.body τ with
    | .start _ _ => some (w.finish τ)
    | _ => none
  | .stop => if w.running then some w.beginStop else some w
  | .call op => some (w.perform cfg .application op).1
  | .send message =>
    match w.sendConn with
    | some c => some (w.modifyConn c (·.write (.message message)))
    | none => some w
  | .addHandler channel h =>
    some { w with
      handlers := w.handlers.insert channel ((w.handlers.lookup channel).getD [] ++ [h]) }
  | .removeHandler channel h =>
    match w.handlers.lookup channel with
    | some hs => some { w with handlers := w.handlers.insert channel (hs.erase h) }
    | none => some w
  | .clearHandlers none => some { w with handlers := ∅ }
  | .clearHandlers (some channel) => some { w with handlers := w.handlers.erase channel }
  | .sent k | .sendFailed k | .resume k | .timeout k | .cancel k => w.callStep cfg k e
  | .run τ => if w.isCancelled τ then none else w.runStep cfg τ
  | .recv τ => if w.isCancelled τ then none else w.recvStep cfg τ
  | .socketEnd τ => if w.isCancelled τ then none else w.socketEndStep cfg τ
  | .callbackCall τ op => if w.isCancelled τ then none else w.callbackCallStep cfg τ op
  | .callbackEnd τ result => if w.isCancelled τ then none else w.callbackEndStep cfg τ result
  | .wake τ => if w.isCancelled τ then none else w.wakeStep cfg τ
  | .closeDone τ => if w.isCancelled τ then none else w.closeDoneStep cfg τ
  | .stopStep τ => w.stopStep τ
  | .deliverCancel τ => if w.isCancelled τ then w.cancelStep cfg τ else none

/-! ## A client to run -/

/-- A client that reconnects after half a second and pings every `heartbeat` seconds. -/
def Config.sample (d : Dialect) (heartbeat : Option ℚ) : Config where
  dialect := d
  reconnect := some fun _ => .wait (1 / 2)
  heartbeatInterval := heartbeat
  heartbeatTimeout := 10
  timeout := 15
  py := ⟨fun _ => "", fun _ => none⟩

/-- The frame with which the Proxy accepts the handshake. -/
def handshakeAck : Inbound := ⟨.json (.obj [("event", .str "auth")]), none⟩

/-- The ack of the subscription that call `k` made with the request number `n`. -/
def subscribeAck (n : ℤ) (k : ℕ) : Inbound where
  raw := .json (.obj [("method", .str "subscribe"), ("success", .bool true), ("req_id", .int n)])
  answers := some k

/-- A task opens a connection and the Proxy accepts the handshake. -/
def openEvents (τ c : ℕ) : List Event :=
  [.connected τ, .authSent τ, .frame c handshakeAck, .authReply τ]

/-- A client starts, and its supervise task begins to read. -/
def startEvents : List Event := .start :: openEvents 0 0 ++ [.run 1]

/-- A started client subscribes to a channel and gets the ack. -/
def subscribeEvents : List Event :=
  startEvents ++ [.call (.subscribe "ticker" none true), .sent 0, .frame 0 (subscribeAck 1 0),
    .recv 1, .callbackEnd 1 .returned, .resume 0]

end ProxyClient.Websocket
