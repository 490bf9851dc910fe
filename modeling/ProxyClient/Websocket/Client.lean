import ProxyClient.Websocket.Calls
import Mathlib.Tactic.Simps.Basic

/-!
# The state of a client

`ProxyWebSocketClient` is one asyncio event loop's worth of state: the client's own
attributes, the connections it opened, the calls in flight, and the tasks that run its
coroutines. A task is described by the suspension point it is at. Between two
suspension points a task runs alone, so that one label of the transition function
takes one task from a suspension point to its next one.
-/

namespace ProxyClient.Websocket

/-- What a reconnect policy does when it is called. -/
inductive Policy
  | wait (delay : ℚ)
  | giveUp
  | raises
  deriving DecidableEq

/-- The constructor arguments of a client that its coroutines read. -/
structure Config where
  /-- `_dialect`. -/
  dialect : Dialect
  /-- `_reconnect`, with `none` for `None`. -/
  reconnect : Option (ℕ → Policy)
  /-- `_heartbeat_interval`. -/
  heartbeatInterval : Option ℚ
  /-- `_heartbeat_timeout`. -/
  heartbeatTimeout : ℚ
  /-- `_timeout`, for the handshake. -/
  timeout : ℚ
  /-- The builtins whose results are opaque here. -/
  py : Builtins

/-- `_RECONNECT_RESET_AFTER`: a connection that was up for so many seconds resets the count of the
attempts. -/
def reconnectResetAfter : ℚ := 5

/-- Which callback of a dispatch is running. -/
inductive Callback
  /-- `on_message`. -/
  | onMessage
  /-- A handler, the handlers of the same list that come after it, and whether the wildcard
  handlers are still to be looked up. -/
  | handler (h : ℕ) (rest : List ℕ) (wildcard : Bool)
  deriving DecidableEq

/-- Where the coroutine `_supervise` is suspended, or one of the coroutines that it awaits. -/
inductive SuperviseAt
  /-- Created and not yet run. -/
  | ready
  /-- In `recv` of the pump, on a connection. -/
  | reading (c : ℕ)
  /-- In a callback of the dispatch of a frame. -/
  | inCallback (c : ℕ) (f : Inbound) (cb : Callback)
  /-- In a call that such a callback awaits. -/
  | inCallbackCall (c : ℕ) (f : Inbound) (cb : Callback) (k : ℕ)
  /-- In the sleep before a reconnect. -/
  | backingOff (wake : ℚ)
  /-- In `open()` of a reconnect. -/
  | opening (c : ℕ) (stage : OpenStage)
  /-- In a `subscribe()` of the replay. -/
  | replaying (k : ℕ) (rest : List Entry)
  /-- In the sleep after it. -/
  | replayGap (wake : ℚ) (rest : List Entry)
  deriving DecidableEq

/-- Where the coroutine `_heartbeat_loop` is suspended. -/
inductive HeartbeatAt
  | ready
  | sleeping (wake : ℚ)
  /-- In `_ping_once`, with the connection bound before it. -/
  | pinging (k : ℕ) (conn : Option ℕ)
  /-- In `close()` after a ping timed out. -/
  | closing (c : ℕ)
  /-- In the one-second sleep after an error. -/
  | resting (wake : ℚ)
  deriving DecidableEq

/-- Where a `stop()` is suspended: it awaits the tasks that it cancelled, and then the close of the
connection. -/
inductive StopAt
  /-- Awaiting the cancelled supervise task, with the heartbeat task still to come. -/
  | awaitingSupervise (task : ℕ) (heartbeat : Option ℕ)
  | awaitingHeartbeat (task : ℕ)
  | closing (c : ℕ)
  deriving DecidableEq

/-- The coroutine a task runs, at its suspension point. -/
inductive Body
  | start (c : ℕ) (stage : OpenStage)
  | stop (pc : StopAt)
  /-- `_supervise`, with its local `attempt`. -/
  | supervise (attempt : ℕ) (pc : SuperviseAt)
  | heartbeat (pc : HeartbeatAt)
  | finished
  deriving DecidableEq

/-- A task of the event loop. -/
structure Task where
  /-- Its coroutine. -/
  body : Body
  /-- `cancel()` was called and the `CancelledError` is still to be delivered. -/
  cancelled : Bool := false

/-- The client, its connections and its tasks, as a step of the event loop finds them. -/
structure World where
  /-- `time.monotonic()`. -/
  now : ℚ := 0
  /-- `_running`. -/
  running : Bool := false
  /-- `_shutdown_event.is_set()`. -/
  shutdown : Bool := false
  /-- `_conn`. -/
  conn : Option ℕ := none
  /-- `_supervise_task`. -/
  superviseTask : Option ℕ := none
  /-- `_heartbeat_task`. -/
  heartbeatTask : Option ℕ := none
  /-- `_pending` and the calls that wait in it. -/
  rpc : Rpc := {}
  /-- `_subscriptions`. -/
  subscriptions : List Entry := []
  /-- `_handlers`. -/
  handlers : AList (fun _ : String => List ℕ) := ∅
  /-- Every connection built, oldest first. -/
  conns : List Connection := []
  /-- Every task of the client, and every `start()` and `stop()`, oldest first. -/
  tasks : List Task := []

namespace World

/-- A freshly constructed client, before its first `start()`. -/
def init : World := {}

/-- The coroutine of a task, `finished` for a number that is no task's. -/
def body (w : World) (τ : ℕ) : Body := (w.tasks[τ]?.map Task.body).getD .finished

/-- A task that has not finished, as `not task.done()` asks. -/
def alive (w : World) (τ : ℕ) : Bool :=
  match w.body τ with
  | .finished => false
  | _ => true

/-- A task with a `CancelledError` on its way. -/
def isCancelled (w : World) (τ : ℕ) : Bool := (w.tasks[τ]?.map Task.cancelled).getD false

/-- Take a task to its next suspension point. -/
@[simps]
def setBody (w : World) (τ : ℕ) (b : Body) : World :=
  { w with tasks := w.tasks.modify τ (fun _ => { body := b }) }

/-- A task ends: its coroutine returns or raises. -/
abbrev finish (w : World) (τ : ℕ) : World := w.setBody τ .finished

/-- `task.cancel()`, which only asks for the cancellation. The `CancelledError` is thrown when the
task is next resumed. -/
@[simps]
def requestCancel (w : World) (τ : ℕ) : World :=
  { w with tasks := w.tasks.modify τ (fun t => { t with cancelled := true }) }

/-- `asyncio.create_task`: the new task runs when the event loop gets to it. -/
@[simps]
def spawn (w : World) (b : Body) : World := { w with tasks := w.tasks ++ [{ body := b }] }

/-- Update a connection, leaving the others as they are. -/
@[simps]
def modifyConn (w : World) (c : ℕ) (f : Connection → Connection) : World :=
  { w with conns := w.conns.modify c f }

/-- The socket of a connection, absent for a number that is no connection's. -/
def sock (w : World) (c : ℕ) : Sock := (w.conns[c]?.map Connection.sock).getD .absent

/-- `is_open` of a connection, which looks at the socket that it holds. -/
def isOpen (w : World) (c : ℕ) : Bool := (w.conns[c]?.map Connection.isOpen).getD false

/-- `is_connected`: whether the connection that `_conn` holds is open. -/
def isConnected (w : World) : Bool := (w.conn.map w.isOpen).getD false

/-- The connection that `send()` binds, if it is open. -/
def sendConn (w : World) : Option ℕ := w.conn.filter w.isOpen

end World

/-- Whether a coroutine is inside `recv` of a connection. -/
def Body.reads (c : ℕ) : Body → Bool
  | .supervise _ (.reading c') => c' = c
  | .supervise _ (.opening c' (.awaitingReply _)) => c' = c
  | .start c' (.awaitingReply _) => c' = c
  | _ => false

/-- Another task is inside `recv` of a connection: a second `recv` raises. -/
def World.readByOther (w : World) (τ c : ℕ) : Bool :=
  (List.range w.tasks.length).any (fun i => i ≠ τ && (w.body i).reads c)

/-! ## Calls -/

namespace World

/-- Register a call and send its frame. A call that finds no open connection raises
`RuntimeError` at once; otherwise its number is returned. -/
def launch (w : World) (call : Call) : World × Option ℕ :=
  let k := w.rpc.calls.length
  let w := { w with rpc := w.rpc.register call }
  match call.conn with
  | none => ({ w with rpc := w.rpc.finish k (.raised (.py .runtimeError)) }, none)
  | some c => (w.modifyConn c (·.write (.call k call.frame)), some k)

/-- The timeout of an operation: the argument of `request()`, `heartbeat_timeout` for a ping, and
the default otherwise. -/
def timeoutOf (cfg : Config) : Operation → ℚ
  | .request _ _ timeout _ _ => timeout
  | .ping => cfg.heartbeatTimeout
  | _ => defaultTimeout

/-- Begin a call: draw its number, frame it, register it and send it. A request that the
dialect cannot frame raises with nothing registered. -/
def perform (cfg : Config) (w : World) (owner : Owner) (op : Operation) : World × Option ℕ :=
  let w := { w with rpc := w.rpc.draw op }
  match op.requestFrame cfg.dialect w.rpc.pending.counter with
  | .error _ => (w, none)
  | .ok (frame, key) =>
    w.launch ⟨op, owner, key, frame, timeoutOf cfg op, w.sendConn, .sending⟩

/-- What `subscribe()` and `unsubscribe()` do with the registry once `request()` returned. -/
def acknowledge (w : World) (op : Operation) : World :=
  match op with
  | .subscribe channel params true =>
    { w with subscriptions := recordEntry w.subscriptions (entryOf channel params) }
  | .unsubscribe channel params =>
    { w with subscriptions := removeEntry w.subscriptions (entryOf channel params) }
  | _ => w

/-- A call ends: its registration is dropped and, if it returned, the registry updated. -/
def endCall (cfg : Config) (w : World) (k : ℕ) (outcome : Outcome) : World :=
  match w.rpc.calls[k]? with
  | none => w
  | some call =>
    let w := { w with rpc := w.rpc.finish k outcome }
    match outcome with
    | .reply f => if (cfg.dialect.errorOf cfg.py f.fields).isNone then w.acknowledge call.op else w
    | .raised _ => w

/-! ## The supervise task -/

/-- `_as_connection_error`: the `ConnectionError` with which the pending futures fail. -/
def asConnectionError : Option Exc → Exc
  | none => .connectionEnded
  | some exc => if exc.isConnectionError then exc else .connectionLost exc

/-- What `_decide_reconnect` returns or raises: an attempt with its delay, the end of the
reconnects, or the exception of the policy. -/
inductive Decision
  | reconnect (attempt : ℕ) (delay : ℚ)
  | giveUp
  | raises

/-- How long the current connection has been up. -/
def connectedDuration (w : World) : ℚ :=
  match (w.conn.bind (fun c => w.conns[c]?)).bind Connection.connectedAt with
  | some t => w.now - t
  | none => 0

/-- `_decide_reconnect`: it counts the attempt and asks the policy about it. -/
def decideReconnect (cfg : Config) (w : World) (attempt : ℕ) : Decision :=
  match cfg.reconnect with
  | none => .giveUp
  | some policy =>
    let attempt := if reconnectResetAfter ≤ w.connectedDuration then 0 else attempt + 1
    match policy attempt with
    | .wait delay => .reconnect attempt delay
    | .giveUp => .giveUp
    | .raises => .raises

/-- `_reconnect_once` up to its first suspension: a fresh connection replaces `_conn`. -/
def beginReconnect (w : World) (σ attempt : ℕ) : World :=
  let c := w.conns.length
  { w with conns := w.conns ++ [({} : Connection)], conn := some c }.setBody σ
    (.supervise attempt (.opening c .connecting))

/-- `_supervise` after `_pump` returned or raised: the pending futures fail, and the policy decides
whether the task sleeps, reconnects at once, or ends. -/
def pumpReturned (cfg : Config) (w : World) (σ attempt : ℕ) (lastError : Option Exc) : World :=
  if w.running then
    let w := { w with rpc := w.rpc.failAll (asConnectionError lastError) }
    match w.decideReconnect cfg attempt with
    | .giveUp => { w with running := false, shutdown := true }.finish σ
    | .raises => w.finish σ
    | .reconnect attempt delay =>
      if 0 < delay then w.setBody σ (.supervise attempt (.backingOff (w.now + delay)))
      else w.beginReconnect σ attempt
  else w.finish σ

/-- Enter `recv` on a connection: two concurrent readers are an error of `websockets`. -/
def read (cfg : Config) (w : World) (σ attempt c : ℕ) : World :=
  if w.readByOther σ c then w.pumpReturned cfg σ attempt (some (.py .concurrencyError))
  else w.setBody σ (.supervise attempt (.reading c))

/-- The loop head of `_supervise`, into `_pump`. -/
def beginPump (cfg : Config) (w : World) (σ attempt : ℕ) : World :=
  if w.running then
    match w.conn with
    | none => w.pumpReturned cfg σ attempt (some (.py .assertionError))
    | some c =>
      if (w.conns[c]?.map Connection.attached).getD false then w.read cfg σ attempt c
      else w.pumpReturned cfg σ attempt (some (.py .runtimeError))
  else w.finish σ

/-- The loop of `_replay_subscriptions`, from its next entry. A `subscribe()` that raises at
once is logged. -/
def replayNext (cfg : Config) (w : World) (σ attempt : ℕ) (entries : List Entry) : World :=
  match entries with
  | [] => w.beginPump cfg σ attempt
  | (channel, params) :: rest =>
    match w.perform cfg (.replay σ) (.subscribe channel (some params) false) with
    | (w, some k) => w.setBody σ (.supervise attempt (.replaying k rest))
    | (w, none) => w.setBody σ (.supervise attempt (.replayGap (w.now + 1 / 10) rest))

/-! ## Dispatch -/

/-- Run the handlers of a list, then the wildcard handlers if they are still to come. -/
def runHandlers (cfg : Config) (w : World) (σ attempt c : ℕ) (f : Inbound) (handlers : List ℕ)
    (wildcard : Bool) : World :=
  match handlers with
  | h :: rest => w.setBody σ (.supervise attempt (.inCallback c f (.handler h rest wildcard)))
  | [] =>
    if wildcard then
      match (w.handlers.lookup "*").getD [] with
      | h :: rest => w.setBody σ (.supervise attempt (.inCallback c f (.handler h rest false)))
      | [] => w.read cfg σ attempt c
    else w.read cfg σ attempt c

/-- The handlers registered under a channel, or `TypeError` for a channel that cannot be
hashed. A falsy channel has none. -/
def handlersOf (w : World) (channel : Json) : Except PyError (List ℕ) :=
  if channel.truthy then
    match channel.key? with
    | none => .error .typeError
    | some (.str name) => .ok ((w.handlers.lookup name).getD [])
    | some _ => .ok []
  else .ok []

/-- `_deliver`: a heartbeat frame without handlers of its own is dropped, and any other frame goes
to the handlers of its channel and those of `'*'`. -/
def deliver (cfg : Config) (w : World) (σ attempt c : ℕ) (f : Inbound) : World :=
  let channel := cfg.dialect.channelOf f.fields
  if channel = .str "heartbeat" ∧ "heartbeat" ∉ w.handlers then w.read cfg σ attempt c
  else
    match w.handlersOf channel with
    | .error e => w.pumpReturned cfg σ attempt (some (.py e))
    | .ok handlers => w.runHandlers cfg σ attempt c f handlers true

/-- `_dispatch` after `on_message`: an exception escapes into `_pump` and ends it. -/
def dispatch (cfg : Config) (w : World) (σ attempt c : ℕ) (f : Inbound) : World :=
  match f.raw with
  | .json (.obj _) =>
    let w := w.modifyConn c (fun conn => { conn with resolved := conn.resolved ++ [f] })
    match w.rpc.pending.resolve f (cfg.dialect.responseKey f.fields) with
    | .error e => w.pumpReturned cfg σ attempt (some (.py e))
    | .ok (consumed, pending) =>
      let w := { w with rpc := { w.rpc with pending := pending } }
      if consumed then w.read cfg σ attempt c else w.deliver cfg σ attempt c f
  | _ => w.pumpReturned cfg σ attempt (some (.py .attributeError))

/-! ## The heartbeat task -/

/-- The loop head of `_heartbeat_loop`: the task sleeps for an interval while the client runs. -/
def heartbeatLoop (cfg : Config) (w : World) (η : ℕ) : World :=
  if w.running then
    w.setBody η (.heartbeat (.sleeping (w.now + cfg.heartbeatInterval.getD 0)))
  else w.finish η

/-- The body of `_heartbeat_loop` after its sleep. -/
def heartbeatPing (cfg : Config) (w : World) (η : ℕ) : World :=
  if w.running then
    let conn := w.conn
    match w.perform cfg (.heartbeat η) .ping with
    | (w, some k) => w.setBody η (.heartbeat (.pinging k conn))
    | (w, none) => w.setBody η (.heartbeat (.resting (w.now + 1)))
  else w.finish η

/-- `_heartbeat_loop` after `_ping_once` returned or raised. Only a timeout on the connection that
is still the current one closes it. -/
def heartbeatPinged (cfg : Config) (w : World) (η : ℕ) (conn : Option ℕ) (outcome : Outcome) :
    World :=
  match outcome with
  | .reply _ => w.heartbeatLoop cfg η
  | .raised .timeoutError =>
    match conn with
    | some c =>
      if w.conn = some c ∧ w.isOpen c then
        (w.modifyConn c Connection.beginClose).setBody η (.heartbeat (.closing c))
      else w.heartbeatLoop cfg η
    | none => w.heartbeatLoop cfg η
  | .raised .cancelledError => w.finish η
  | .raised _ => w.setBody η (.heartbeat (.resting (w.now + 1)))

/-! ## Ends of calls and of `open()` -/

/-- The task that awaits a call inline goes on after it. -/
def resumeOwner (cfg : Config) (w : World) (k : ℕ) (owner : Owner) (outcome : Outcome) : World :=
  match owner with
  | .application => w
  | .callback σ =>
    match w.body σ with
    | .supervise attempt (.inCallbackCall c f cb k') =>
      if k' = k then w.setBody σ (.supervise attempt (.inCallback c f cb)) else w
    | _ => w
  | .replay σ =>
    match w.body σ with
    | .supervise attempt (.replaying k' rest) =>
      if k' = k then
        match outcome with
        | .raised .cancelledError => w.finish σ
        | _ => w.setBody σ (.supervise attempt (.replayGap (w.now + 1 / 10) rest))
      else w
    | _ => w
  | .heartbeat η =>
    match w.body η with
    | .heartbeat (.pinging k' conn) =>
      if k' = k then w.heartbeatPinged cfg η conn outcome else w
    | _ => w

/-- A call ends and its owner goes on. -/
def conclude (cfg : Config) (w : World) (k : ℕ) (outcome : Outcome) : World :=
  match w.rpc.calls[k]? with
  | none => w
  | some call => (w.endCall cfg k outcome).resumeOwner cfg k call.owner outcome

/-- `start()` after `open()` returned: the background tasks are created. -/
def started (cfg : Config) (w : World) (τ : ℕ) : World :=
  let w := w.finish τ
  let w := { w with superviseTask := some w.tasks.length }.spawn (.supervise 0 .ready)
  match cfg.heartbeatInterval with
  | none => w
  | some _ => { w with heartbeatTask := some w.tasks.length }.spawn (.heartbeat .ready)

/-- `open()` returned. A `start()` goes on to create its tasks, and a reconnect to its replay. -/
def opened (cfg : Config) (w : World) (τ c : ℕ) : World :=
  let registry := w.subscriptions
  let now := w.now
  let w := w.modifyConn c (fun conn =>
    { conn with connectedAt := some now, registryAtOpen := registry })
  match w.body τ with
  | .supervise attempt _ => w.replayNext cfg τ attempt registry
  | _ => w.started cfg τ

/-- `open()` raised: `start()` raises, and `_reconnect_once` logs and swallows it. -/
def openFailed (cfg : Config) (w : World) (τ : ℕ) : World :=
  match w.body τ with
  | .supervise attempt _ => w.beginPump cfg τ attempt
  | _ => w.finish τ

/-- Suspend `open()` of a task at a stage. -/
def setStage (w : World) (τ : ℕ) (stage : OpenStage) : World :=
  match w.body τ with
  | .supervise attempt (.opening c _) => w.setBody τ (.supervise attempt (.opening c stage))
  | .start c _ => w.setBody τ (.start c stage)
  | _ => w

/-- The connection and the stage of a task that is inside `open()`. -/
def opening? (w : World) (τ : ℕ) : Option (ℕ × OpenStage) :=
  match w.body τ with
  | .supervise _ (.opening c stage) => some (c, stage)
  | .start c stage => some (c, stage)
  | _ => none

/-! ## `stop()` -/

/-- The end of `stop()`: the connection is dropped and every pending future cancelled. -/
def stopFinish (w : World) (τ : ℕ) : World :=
  { w with conn := none, rpc := w.rpc.cancelAll }.finish τ

/-- `stop()` from the closing of the connection on. -/
def stopClose (w : World) (τ : ℕ) : World :=
  match w.conn with
  | none => w.stopFinish τ
  | some c =>
    if w.isOpen c then (w.modifyConn c Connection.beginClose).setBody τ (.stop (.closing c))
    else (w.modifyConn c Connection.detach).stopFinish τ

/-- `stop()` from the heartbeat task on, which it cancels and awaits if it is alive. -/
def stopHeartbeat (w : World) (τ : ℕ) (heartbeat : Option ℕ) : World :=
  match heartbeat.filter w.alive with
  | none => w.stopClose τ
  | some η => (w.requestCancel η).setBody τ (.stop (.awaitingHeartbeat η))

/-- `stop()` up to its first suspension: the client is switched off, and the supervise task
cancelled and awaited if it is alive. -/
def beginStop (w : World) : World :=
  let τ := w.tasks.length
  let w := { w with running := false, shutdown := true }.spawn .finished
  match w.superviseTask.filter w.alive with
  | none => w.stopHeartbeat τ w.heartbeatTask
  | some σ => (w.requestCancel σ).setBody τ (.stop (.awaitingSupervise σ w.heartbeatTask))

end World

end ProxyClient.Websocket
