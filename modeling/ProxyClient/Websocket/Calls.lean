import ProxyClient.Websocket.Registry

/-!
# Calls in flight

`request()`, `subscribe()`, `unsubscribe()` and `_ping_once()` are one pattern: register a
future, send a frame, wait for the future with a timeout, and drop the registration on
the way out. A call is one activation of that pattern. Its number is also the number of
its future.
-/

namespace ProxyClient.Websocket

/-- What a call was asked to do. -/
inductive Operation
  /-- `request(method, params, timeout, idempotency_key=…)`; the last field is the key that
  `new_idempotency_key()` would return. -/
  | request (method : String) (params : Option Params) (timeout : ℚ)
      (idempotencyKey : Option String) (freshKey : String)
  /-- `subscribe(channel, params, persist=…)`. -/
  | subscribe (channel : String) (params : Option Params) (persist : Bool)
  /-- `unsubscribe(channel, params)`. -/
  | unsubscribe (channel : String) (params : Option Params)
  /-- `_ping_once(heartbeat_timeout)`. -/
  | ping
  deriving DecidableEq

/-- Whether the operation is a `request()` and not a ping. -/
def Operation.isRequest : Operation → Bool
  | ping => false
  | _ => true

/-- `ORDER_METHODS`, the methods whose frames carry an idempotency key. -/
def orderMethods : List String :=
  ["add_order", "amend_order", "edit_order", "cancel_order", "batch_add", "batch_cancel"]

/-- The default `timeout` of `request()`, in seconds. -/
def defaultTimeout : ℚ := 10

/-- `idempotency_key or new_idempotency_key()`: an empty key counts as none. -/
def keyOrFresh (idempotencyKey : Option String) (freshKey : String) : String :=
  if idempotencyKey.getD "" = "" then freshKey else idempotencyKey.getD ""

/-- The frame and the key of a `request()` with the number `reqId`. -/
def Operation.requestFrame (op : Operation) (d : Dialect) (reqId : ℕ) :
    Except PyError (Fields × Key) :=
  match op with
  | request method params _ idempotencyKey freshKey =>
    let isOrder := decide (method ∈ orderMethods)
    d.requestFrame method params reqId
      (if isOrder then some (keyOrFresh idempotencyKey freshKey) else idempotencyKey) isOrder
  | subscribe channel params _ =>
    d.requestFrame "subscribe" (some (channelParams channel params)) reqId none false
  | unsubscribe channel params =>
    d.requestFrame "unsubscribe" (some (channelParams channel params)) reqId none false
  | ping => .ok ([("op", .str "ping")], pongKey)

/-- Whose task awaits a call: a task of the application, or one of the client's own tasks
that awaits it inline. -/
inductive Owner
  | application
  /-- A callback run by the supervise task. -/
  | callback (task : ℕ)
  /-- `_replay_subscriptions` in the supervise task. -/
  | replay (task : ℕ)
  /-- The heartbeat task. -/
  | heartbeat (task : ℕ)
  deriving DecidableEq

/-- How a call ended: with the frame that its future held, or with an exception. -/
inductive Outcome
  /-- Its future got this frame. `error_of` decides whether the call returns it or raises. -/
  | reply (f : Inbound)
  | raised (exc : Exc)
  deriving DecidableEq

/-- Where a call is suspended: in the send of its frame, in the wait for its future, or nowhere any
more. -/
inductive Phase
  /-- In `ws.send`. -/
  | sending
  /-- In `asyncio.wait_for`. -/
  | waiting (deadline : ℚ)
  | ended (outcome : Outcome)
  deriving DecidableEq

/-- Whether the call has returned or raised. -/
def Phase.isEnded : Phase → Bool
  | ended _ => true
  | _ => false

/-- One activation of `request()` or `_ping_once()`, from its registration to its end. -/
structure Call where
  /-- The operation. -/
  op : Operation
  /-- The task that awaits the call. -/
  owner : Owner
  /-- The key its future is registered under. -/
  key : Key
  /-- The frame it sends. -/
  frame : Fields
  /-- Its timeout. -/
  timeout : ℚ
  /-- The connection `send()` bound, if there was an open one. -/
  conn : Option ℕ
  /-- Where it is suspended. -/
  phase : Phase

/-- The pending requests and the calls that wait for them. -/
structure Rpc where
  /-- `_pending`. -/
  pending : PendingRequests := {}
  /-- Every call ever begun, in the order of their futures. -/
  calls : List Call := []

namespace Rpc

/-- The future that a call registered, which has the number of the call. -/
def future (r : Rpc) (k : ℕ) : Option (Future Inbound Exc) := r.pending.heap[k]?

/-- Draw a request number, which a ping does without. -/
def draw (r : Rpc) (op : Operation) : Rpc :=
  if op.isRequest then { r with pending := r.pending.nextId.2 } else r

/-- Register the future of a new call. -/
def register (r : Rpc) (call : Call) : Rpc where
  pending := (r.pending.create call.key).2
  calls := r.calls ++ [call]

/-- The send of a call returned, and it waits for its future. -/
def await (r : Rpc) (k : ℕ) (deadline : ℚ) : Rpc :=
  { r with calls := r.calls.modify k (fun call => { call with phase := .waiting deadline }) }

/-- The `finally` block of a call: a request drops its key, a ping the slot it may hold. -/
def release (p : PendingRequests) (k : ℕ) (call : Call) : PendingRequests :=
  match call.op with
  | .ping => p.discardPong k
  | _ => p.discard call.key

/-- `wait_for` cancels the future it gives up on. -/
def abandon (p : PendingRequests) (k : ℕ) (call : Call) : PendingRequests :=
  match call.phase with
  | .waiting _ => { p with heap := Future.complete p.heap k .cancelled }
  | _ => p

/-- A call ends: `wait_for` cancels a future that it gives up on, and the `finally` block gives the
key up. -/
def finish (r : Rpc) (k : ℕ) (outcome : Outcome) : Rpc :=
  match r.calls[k]? with
  | none => r
  | some call =>
    { pending := release (abandon r.pending k call) k call
      calls := r.calls.modify k (fun call => { call with phase := .ended outcome }) }

/-- `fail_all`: every registered call is to raise the same exception. -/
def failAll (r : Rpc) (exc : Exc) : Rpc := { r with pending := r.pending.failAll exc }

/-- `cancel_all`: every registered call is to raise a `CancelledError`. -/
def cancelAll (r : Rpc) : Rpc := { r with pending := r.pending.cancelAll }

/-- Drawing a request number begins no call. -/
@[simp] theorem calls_draw (r : Rpc) (op : Operation) : (r.draw op).calls = r.calls := by
  unfold Rpc.draw
  split <;> rfl

/-- It allocates no future. -/
@[simp] theorem heap_draw (r : Rpc) (op : Operation) :
    (r.draw op).pending.heap = r.pending.heap := by
  unfold Rpc.draw
  split <;> rfl

/-- It registers no key. -/
@[simp] theorem futures_draw (r : Rpc) (op : Operation) :
    (r.draw op).pending.futures = r.pending.futures := by
  unfold Rpc.draw
  split <;> rfl

end Rpc

end ProxyClient.Websocket
