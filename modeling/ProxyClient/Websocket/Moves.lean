import ProxyClient.Websocket.Updates
import Mathlib.Logic.Relation

/-!
# The moves a step is made of

One label takes a task through several statements of the source. `Move` lists what a
single such statement can do to the state, with the conditions under which the source
reaches it, and the refinement theorem at the end of `Decompose` takes every step of the
transition function apart into moves. Invariants are then proved move by move.
-/

namespace ProxyClient.Websocket

/-- The call that the coroutine of a task awaits, and as whose. -/
def Body.awaits (τ : ℕ) : Body → Option (Owner × ℕ)
  | .supervise _ (.inCallbackCall _ _ _ k) => some (.callback τ, k)
  | .supervise _ (.replaying k _) => some (.replay τ, k)
  | .heartbeat (.pinging k _) => some (.heartbeat τ, k)
  | _ => none

/-- The connection from which a supervise task pumps frames. -/
def Body.pumps : Body → Option ℕ
  | .supervise _ (.reading c) | .supervise _ (.inCallback c _ _)
  | .supervise _ (.inCallbackCall c _ _ _) => some c
  | _ => none

/-- The task of the client that awaits a call of this owner. -/
def Owner.task : Owner → Option ℕ
  | application => none
  | callback τ | replay τ | heartbeat τ => some τ

/-- The task that a label resumes, if it resumes one. -/
def Event.task : Event → Option ℕ
  | .connected τ | .connectFailed τ | .authSent τ | .authSendFailed τ | .authReply τ
  | .authTimeout τ | .authClosed τ | .cancelStart τ | .run τ | .recv τ | .socketEnd τ
  | .callbackCall τ _ | .callbackEnd τ _ | .wake τ | .closeDone τ | .stopStep τ
  | .deliverCancel τ => some τ
  | _ => none

/-- The call of the application or of a task that a label resumes, if it resumes one. -/
def Event.callNo : Event → Option ℕ
  | .sent k | .sendFailed k | .resume k | .timeout k | .cancel k => some k
  | _ => none

/-- The task that takes a step: the one the label names, the one that awaits the call the
label names, or a new `stop()`. -/
inductive Acts (w : World) : Event → ℕ → Prop
  | task {e : Event} {τ : ℕ} : e.task = some τ → Acts w e τ
  | call {e : Event} {k : ℕ} {call : Call} {τ : ℕ} : e.callNo = some k →
      w.rpc.calls[k]? = some call → call.owner.task = some τ → Acts w e τ
  | stop : Acts w .stop w.tasks.length

/-! ## Calls -/

/-- A call as `request()` or `_ping_once()` sets out with it. -/
structure Framed (cfg : Config) (w : World) (call : Call) : Prop where
  /-- The dialect framed it with the number just drawn. -/
  frame : call.op.requestFrame cfg.dialect (w.rpc.draw call.op).pending.counter =
    .ok (call.frame, call.key)
  conn : call.conn = w.sendConn
  phase : call.phase = .sending

/-- Where a call of an operation begins. -/
inductive Begins (w : World) : Event → Operation → Prop
  | call {op : Operation} : Begins w (.call op) op
  | callback {σ : ℕ} {op : Operation} : Begins w (.callbackCall σ op) op
  | replay {e : Event} {channel : String} {params : Params} :
      Begins w e (.subscribe channel (some params) false)
  | heartbeat {η : ℕ} {wake : ℚ} : w.body η = .heartbeat (.sleeping wake) →
      Begins w (.wake η) .ping

/-- The client's own tasks begin calls of one kind each. -/
structure Fitting (call : Call) : Prop where
  replay : ∀ τ, call.owner = .replay τ →
    ∃ channel params, call.op = .subscribe channel (some params) false
  heartbeat : ∀ τ, call.owner = .heartbeat τ → call.op = .ping

/-- A call is registered and its frame handed to the socket. -/
def World.launched (w : World) (call : Call) (c : ℕ) : World :=
  ({ w with rpc := (w.rpc.draw call.op).register call }).modifyConn c
    (·.write (.call w.rpc.calls.length call.frame))

/-- A call is registered, finds no open connection and raises. -/
def World.refused (w : World) (call : Call) : World :=
  { w with
    rpc := ((w.rpc.draw call.op).register call).finish w.rpc.calls.length
      (.raised (.py .runtimeError)) }

/-- Why a call ends, and how: each way out of `request()` and `_ping_once()`, with the state in
which it is taken. -/
inductive Ends (w : World) (e : Event) (k : ℕ) (call : Call) : Outcome → Prop
  | sendFailed : e = .sendFailed k → call.phase = .sending →
      call.conn.map w.sock ≠ some .live → Ends w e k call (.raised (.py .connectionClosed))
  | reply {deadline : ℚ} {f : Inbound} : e = .resume k → call.phase = .waiting deadline →
      w.rpc.future k = some (.result f) → Ends w e k call (.reply f)
  | failed {deadline : ℚ} {exc : Exc} : e = .resume k → call.phase = .waiting deadline →
      w.rpc.future k = some (.exception exc) → Ends w e k call (.raised exc)
  | cancelled {deadline : ℚ} : e = .resume k → call.phase = .waiting deadline →
      w.rpc.future k = some .cancelled → Ends w e k call (.raised .cancelledError)
  | timeout {deadline : ℚ} : e = .timeout k → call.phase = .waiting deadline →
      deadline ≤ w.now → w.rpc.future k = some .pending →
      Ends w e k call (.raised .timeoutError)
  | callerCancelled : e = .cancel k → call.owner = .application → call.phase.isEnded = false →
      Ends w e k call (.raised .cancelledError)
  | taskCancelled {τ : ℕ} : e = .deliverCancel τ → call.owner.task = some τ →
      call.phase.isEnded = false → Ends w e k call (.raised .cancelledError)

/-! ## `open()` and `_dispatch` -/

/-- What `_authenticate` makes of the next frame on a connection. -/
def World.handshake? (w : World) (c : ℕ) : Option (Except Exc Unit) :=
  (w.conns[c]?.bind (fun conn => conn.inbox.head?)).map (fun f => handshakeReply f.raw)

/-- `open()` of a task on a connection raises in this step. -/
inductive OpenRaises (w : World) (τ c : ℕ) : Event → Prop
  | connect : OpenRaises w τ c (.connectFailed τ)
  | send : OpenRaises w τ c (.authSendFailed τ)
  | concurrent : w.readByOther τ c = true → OpenRaises w τ c (.authSent τ)
  | timeout : OpenRaises w τ c (.authTimeout τ)
  | closed : OpenRaises w τ c (.authClosed τ)
  | refused {exc : Exc} : w.handshake? c = some (.error exc) → OpenRaises w τ c (.authReply τ)

/-- `open()` of a task on a connection returns in this step: the Proxy accepted the handshake. -/
structure OpenReturns (w : World) (τ c : ℕ) (e : Event) : Prop where
  event : e = .authReply τ
  stage : ∃ deadline, w.opening? τ = some (c, .awaitingReply deadline)
  reply : w.handshake? c = some (.ok ())

/-- The slot of the map of pending requests in which `resolve` looks a frame up. -/
def Dialect.slotOf (d : Dialect) (f : Inbound) : Option Key :=
  if Fields.get f.fields "event" = .str "pong" then some pongKey
  else if d.responseKey f.fields = .null then none
  else (d.responseKey f.fields).key?

/-- A supervise task ends `on_message` for a frame and goes on to `resolve`. -/
structure Resolves (w : World) (e : Event) (σ c : ℕ) (f : Inbound) : Prop where
  event : e = .callbackEnd σ .returned ∨ e = .callbackEnd σ .raised
  body : ∃ attempt, w.body σ = .supervise attempt (.inCallback c f .onMessage)

/-- `_deliver` has a handler to call for a frame. -/
structure World.Listening (cfg : Config) (w : World) (f : Inbound) : Prop where
  /-- It is no heartbeat of the venue that nobody asked for. -/
  wanted : ¬(cfg.dialect.channelOf f.fields = .str "heartbeat" ∧ "heartbeat" ∉ w.handlers)
  /-- A handler is registered for its channel or for every channel. -/
  registered : ∃ hs, w.handlersOf (cfg.dialect.channelOf f.fields) = .ok hs ∧
    (hs ≠ [] ∨ (w.handlers.lookup "*").getD [] ≠ [])

/-! ## Ends of the pump -/

/-- `_dispatch` raises from `resolve` on, which is how it ends the pump on an open socket. -/
def World.dispatchRaises (cfg : Config) (w : World) (f : Inbound) : Bool :=
  match f.raw with
  | .json (.obj _) =>
    match w.rpc.pending.resolve f (cfg.dialect.responseKey f.fields) with
    | .error _ => true
    | .ok (true, _) => false
    | .ok (false, _) => !(w.handlersOf (cfg.dialect.channelOf f.fields)).isOk
  | _ => true

/-- `_pump` returns in this step for another reason than the end of its socket: a frame that
cannot be loaded or dispatched, or a `CancelledError`. -/
def World.pumpAborts (cfg : Config) (w : World) (σ : ℕ) (e : Event) : Bool :=
  match w.body σ, e with
  | .supervise _ (.reading c), .recv _ =>
    match w.conns[c]?.map Connection.inbox with
    | some (f :: _) => f.raw = .unloadable
    | _ => false
  | .supervise _ (.reading _), .deliverCancel _ => true
  | .supervise _ (.inCallback _ _ _), .callbackEnd _ .cancelled => true
  | .supervise _ (.inCallback _ f .onMessage), .callbackEnd _ _ => w.dispatchRaises cfg f
  | _, _ => false

/-- Why `_pump` returns to a running client. -/
inductive PumpReturns (cfg : Config) (w₀ : World) (e : Event) (w : World) (σ : ℕ) : Prop
  | closed {c : ℕ} {clean : Bool} : (w₀.body σ).pumps = some c → w.conn = w₀.conn →
      w.sock c = .closed clean → PumpReturns cfg w₀ e w σ
  | aborts {c : ℕ} : e.task = some σ → w₀.pumpAborts cfg σ e = true →
      (w₀.body σ).pumps = some c → w.conn = w₀.conn → w.sock c = w₀.sock c →
      PumpReturns cfg w₀ e w σ
  /-- The assertion of `_pump` fails. -/
  | absent : w.conn = none → PumpReturns cfg w₀ e w σ
  /-- `__aiter__` finds no socket. -/
  | detached {c : ℕ} : w.conn = some c → (w.conns[c]?.map Connection.attached).getD false = false →
      PumpReturns cfg w₀ e w σ
  | concurrent {c : ℕ} : w.readByOther σ c = true → PumpReturns cfg w₀ e w σ

/-- Why a client that runs ceases to. -/
inductive Halts (cfg : Config) (w₀ : World) (e : Event) (w : World) : Prop
  | stop : e = .stop → w = w₀ → Halts cfg w₀ e w
  /-- The policy gives up, and the futures have been failed. -/
  | giveUp {σ a : ℕ} {pc : SuperviseAt} : Acts w₀ e σ → w₀.body σ = .supervise a pc →
      w.body σ = .finished → w.rpc.pending.futures = ∅ → PumpReturns cfg w₀ e w σ →
      Halts cfg w₀ e w

/-! ## Frames handed to the socket -/

/-- The label makes the client hand a frame of its own or of the application to the socket of
the connection that `_conn` holds, if that connection is open. -/
def World.sends (cfg : Config) (w : World) : Event → Bool
  | .send _ => true
  | .call op | .callbackCall _ op =>
    (op.requestFrame cfg.dialect (w.rpc.draw op).pending.counter).isOk
  | .wake τ =>
    match w.body τ with
    | .heartbeat (.sleeping _) => w.running
    | .supervise _ (.replayGap _ rest) => !rest.isEmpty
    | _ => false
  | .authReply τ =>
    match w.body τ with
    | .supervise _ (.opening c _) =>
      match w.handshake? c with
      | some (.ok _) => !w.subscriptions.isEmpty
      | _ => false
    | _ => false
  | _ => false

/-- The statement of a step that hands such a frame to the socket: its first one, or the first
one after `open()` returned. -/
inductive Sends (cfg : Config) (w₀ : World) (e : Event) (w : World) : Prop
  | first : w₀.sends cfg e = true → (∀ τ, e ≠ .authReply τ) → w = w₀ → Sends cfg w₀ e w
  | accepted {τ c : ℕ} {conn : Connection} : w₀.sends cfg e = true → OpenReturns w₀ τ c e →
      w.conn = w₀.conn → w.conns[c]? = some conn → conn.connectedAt.isSome = true →
      (∀ c' ≠ c, w.conns[c']? = w₀.conns[c']?) → Sends cfg w₀ e w

/-! ## Tasks -/

/-- A supervise task is about to enter the pump from outside of it. -/
inductive Enters (w₀ : World) (e : Event) (w : World) (σ : ℕ) : Body → Prop
  /-- On its first step. -/
  | ready {attempt : ℕ} : Enters w₀ e w σ (.supervise attempt .ready)
  /-- After the last entry of a replay. -/
  | replayed {attempt : ℕ} {wake : ℚ} : Enters w₀ e w σ (.supervise attempt (.replayGap wake []))
  /-- After a reconnect with nothing to replay. -/
  | accepted {attempt c : ℕ} {stage : OpenStage} {conn : Connection} :
      w.conns[c]? = some conn → conn.connectedAt.isSome = true → conn.registryAtOpen = [] →
      Enters w₀ e w σ (.supervise attempt (.opening c stage))
  /-- After a reconnect that failed. -/
  | refused {attempt c : ℕ} {stage : OpenStage} : OpenRaises w₀ σ c e →
      w₀.body σ = .supervise attempt (.opening c stage) → w.sock c = w₀.sock c →
      Enters w₀ e w σ (.supervise attempt (.opening c stage))

/-- A supervise task is about to send the next entry of a replay. -/
inductive Replays (w : World) : Body → Entry → List Entry → Prop
  | first {attempt c : ℕ} {stage : OpenStage} {conn : Connection} {entry : Entry}
      {rest : List Entry} : w.conns[c]? = some conn → conn.connectedAt.isSome = true →
      conn.registryAtOpen = entry :: rest →
      Replays w (.supervise attempt (.opening c stage)) entry rest
  | next {attempt : ℕ} {wake : ℚ} {entry : Entry} {rest : List Entry} :
      Replays w (.supervise attempt (.replayGap wake (entry :: rest))) entry rest

/-- How a task that awaits no call gets to its next suspension point. -/
inductive Goes (cfg : Config) (w₀ : World) (e : Event) (w : World) (τ : ℕ) : Body → Body → Prop
  | finish {b : Body} : b.awaits τ = none → Goes cfg w₀ e w τ b .finished
  | reopen {attempt c : ℕ} {stage stage' : OpenStage} :
      Goes cfg w₀ e w τ (.supervise attempt (.opening c stage))
        (.supervise attempt (.opening c stage'))
  | start {c : ℕ} {stage stage' : OpenStage} :
      Goes cfg w₀ e w τ (.start c stage) (.start c stage')
  | backOff {attempt attempt' : ℕ} {pc : SuperviseAt} {wake : ℚ} :
      (Body.supervise attempt pc).awaits τ = none → PumpReturns cfg w₀ e w τ →
      Goes cfg w₀ e w τ (.supervise attempt pc) (.supervise attempt' (.backingOff wake))
  | enter {b : Body} {attempt c : ℕ} : Enters w₀ e w τ b → w.running = true →
      w.conn = some c → Goes cfg w₀ e w τ b (.supervise attempt (.reading c))
  | read {attempt c : ℕ} {f : Inbound} {cb : Callback} :
      Goes cfg w₀ e w τ (.supervise attempt (.inCallback c f cb)) (.supervise attempt (.reading c))
  | handle {attempt c h : ℕ} {f : Inbound} {cb : Callback} {rest : List ℕ} {wildcard : Bool} :
      (cb = .onMessage → Resolves w₀ e τ c f ∧ w₀.Listening cfg f ∧
        ∃ p, w₀.rpc.pending.resolve f (cfg.dialect.responseKey f.fields) = .ok (false, p)) →
      Goes cfg w₀ e w τ (.supervise attempt (.inCallback c f cb))
        (.supervise attempt (.inCallback c f (.handler h rest wildcard)))
  | recancel {attempt c : ℕ} {f : Inbound} {cb : Callback} :
      Goes cfg w₀ e w τ (.supervise attempt (.inCallback c f cb))
        (.supervise attempt (.inCallback c f cb))
  | gap {b : Body} {attempt : ℕ} {wake : ℚ} {entry : Entry} {rest : List Entry} :
      Replays w b entry rest → w.sendConn = none →
      Goes cfg w₀ e w τ b (.supervise attempt (.replayGap wake rest))
  | sleep {pc : HeartbeatAt} {wake : ℚ} : (Body.heartbeat pc).awaits τ = none →
      Goes cfg w₀ e w τ (.heartbeat pc) (.heartbeat (.sleeping wake))
  | rest {pc : HeartbeatAt} {wake : ℚ} : (Body.heartbeat pc).awaits τ = none →
      Goes cfg w₀ e w τ (.heartbeat pc) (.heartbeat (.resting wake))
  | stop {b : Body} {pc : StopAt} :
      (∃ pc', b = .stop pc') ∨ (b = .finished ∧ w.running = false ∧ e = .stop) →
      Goes cfg w₀ e w τ b (.stop pc)

/-- How a task begins to await a call. -/
inductive Calls (w₀ w : World) (τ k : ℕ) (call : Call) : Body → Body → Prop
  | callback {attempt c : ℕ} {f : Inbound} {cb : Callback} :
      call.owner = .callback τ → w = w₀ →
      Calls w₀ w τ k call (.supervise attempt (.inCallback c f cb))
        (.supervise attempt (.inCallbackCall c f cb k))
  | replay {b : Body} {attempt : ℕ} {channel : String} {params : Params} {rest : List Entry} :
      call.owner = .replay τ → call.op = .subscribe channel (some params) false →
      Replays w b (channel, params) rest →
      Calls w₀ w τ k call b (.supervise attempt (.replaying k rest))
  | heartbeat {wake : ℚ} {conn : Option ℕ} :
      call.owner = .heartbeat τ → call.op = .ping → w = w₀ →
      Calls w₀ w τ k call (.heartbeat (.sleeping wake)) (.heartbeat (.pinging k conn))

/-- How a task goes on after the call it awaited. -/
inductive Resumes (τ k : ℕ) (outcome : Outcome) : Body → Body → Prop
  | callback {attempt c : ℕ} {f : Inbound} {cb : Callback} :
      Resumes τ k outcome (.supervise attempt (.inCallbackCall c f cb k))
        (.supervise attempt (.inCallback c f cb))
  | replay {attempt : ℕ} {wake : ℚ} {rest : List Entry} :
      Resumes τ k outcome (.supervise attempt (.replaying k rest))
        (.supervise attempt (.replayGap wake rest))
  | sleep {conn : Option ℕ} {wake : ℚ} :
      Resumes τ k outcome (.heartbeat (.pinging k conn)) (.heartbeat (.sleeping wake))
  | rest {conn : Option ℕ} {wake : ℚ} :
      Resumes τ k outcome (.heartbeat (.pinging k conn)) (.heartbeat (.resting wake))
  | close {c : ℕ} {conn : Option ℕ} : outcome = .raised .timeoutError →
      Resumes τ k outcome (.heartbeat (.pinging k conn)) (.heartbeat (.closing c))
  | finish {b : Body} {owner : Owner} : b.awaits τ = some (owner, k) →
      Resumes τ k outcome b .finished

/-! ## Connections -/

/-- What happens to a connection: the network, `open()`, the pump, a send or a close. -/
inductive Alters (w₀ : World) (e : Event) (w : World) (c : ℕ) :
    (Connection → Connection) → Prop
  | arrive {f : Inbound} : e = .frame c f → w.sock c = .live →
      Alters w₀ e w c (·.receive f)
  | beginClose : Alters w₀ e w c Connection.beginClose
  | endClose : Alters w₀ e w c Connection.endClose
  | detach : w.isOpen c = false → Alters w₀ e w c Connection.detach
  | close {clean : Bool} : Alters w₀ e w c (fun conn => { conn with sock := .closed clean })
  | connect {τ : ℕ} : e = .connected τ → w = w₀ → w.opening? τ = some (c, .connecting) →
      Alters w₀ e w c (fun conn => conn.connect.write .auth)
  | pop {τ : ℕ} {f : Inbound} {inbox : List Inbound} : e = .recv τ ∨ e = .authReply τ → w = w₀ →
      w.conns[c]?.map Connection.inbox = some (f :: inbox) →
      Alters w₀ e w c (fun conn => { conn with inbox := inbox })
  | accept {τ : ℕ} : OpenReturns w₀ τ c e → w.body τ = w₀.body τ →
      w.subscriptions = w₀.subscriptions →
      Alters w₀ e w c (fun conn =>
        { conn with connectedAt := some w.now, registryAtOpen := w.subscriptions })
  | resolve {σ : ℕ} {f : Inbound} : Resolves w₀ e σ c f →
      Alters w₀ e w c (fun conn => { conn with resolved := conn.resolved ++ [f] })
  | message {frame : Fields} : e = .send frame → w = w₀ → w.sendConn = some c →
      Alters w₀ e w c (·.write (.message frame))

/-! ## Moves -/

/-- What a statement of the source can do, in the state `w`, during the step with label `e`
that began in `w₀`. -/
inductive Move (cfg : Config) (w₀ : World) (e : Event) (w : World) : World → Prop
  | tick {d : ℚ} : e = .tick d → 0 ≤ d → Move cfg w₀ e w { w with now := w.now + d }
  | handlers (hs : AList (fun _ : String => List ℕ)) :
      Move cfg w₀ e w { w with handlers := hs }
  | alter {c : ℕ} {f : Connection → Connection} : Alters w₀ e w c f →
      Move cfg w₀ e w (w.modifyConn c f)
  | halt : w.running = true → Halts cfg w₀ e w →
      Move cfg w₀ e w { w with running := false, shutdown := true }
  | drop : (w.running = false ∧ e = .stop) ∨ (∃ τ pc, Acts w₀ e τ ∧ w.body τ = .stop pc) →
      Move cfg w₀ e w { w with conn := none }
  -- tasks
  | start : e = .start → w = w₀ → w.running = false →
      Move cfg w₀ e w ({ w with running := true, shutdown := false, conn := some w.conns.length,
                                conns := w.conns ++ [({} : Connection)] }.spawn
        (.start w.conns.length .connecting))
  | goto {τ : ℕ} {b : Body} : Acts w₀ e τ → Goes cfg w₀ e w τ (w.body τ) b →
      Move cfg w₀ e w (w.setBody τ b)
  | reconnect {σ attempt attempt' : ℕ} {pc : SuperviseAt} : Acts w₀ e σ →
      w.body σ = .supervise attempt pc → (Body.supervise attempt pc).awaits σ = none →
      w.running = true → PumpReturns cfg w₀ e w σ ∨ (∃ wake, pc = .backingOff wake) →
      Move cfg w₀ e w (w.beginReconnect σ attempt')
  | take {σ attempt c : ℕ} {f : Inbound} {inbox : List Inbound} : e = .recv σ → w = w₀ →
      w.body σ = .supervise attempt (.reading c) →
      w.conns[c]?.map Connection.inbox = some (f :: inbox) →
      Move cfg w₀ e w ((w.modifyConn c (fun conn => { conn with inbox := inbox })).setBody σ
        (.supervise attempt (.inCallback c f .onMessage)))
  | supervise {τ c : ℕ} {stage : OpenStage} {conn : Connection} : OpenReturns w₀ τ c e →
      w.body τ = .start c stage → w₀.body τ = w.body τ →
      w.conns[c]? = some conn → conn.connectedAt.isSome = true →
      conn.registryAtOpen = w₀.subscriptions →
      Move cfg w₀ e w ({ w.finish τ with superviseTask := some (w.finish τ).tasks.length }.spawn
        (.supervise 0 .ready))
  | heartbeat {τ c : ℕ} {stage : OpenStage} : OpenReturns w₀ τ c e → w₀.body τ = .start c stage →
      Move cfg w₀ e w ({ w with heartbeatTask := some w.tasks.length }.spawn (.heartbeat .ready))
  | stop : e = .stop → Move cfg w₀ e w (w.spawn .finished)
  | cancelTask (τ : ℕ) : Move cfg w₀ e w (w.requestCancel τ)
  -- calls
  | draw (op : Operation) : Move cfg w₀ e w { w with rpc := w.rpc.draw op }
  | launch {call : Call} {c : ℕ} : w = w₀ → Framed cfg w call → Begins w₀ e call.op →
      call.conn = some c → call.owner = .application → e = .call call.op →
      Move cfg w₀ e w (w.launched call c)
  | call {τ c : ℕ} {call : Call} {b : Body} : Acts w₀ e τ → Framed cfg w call →
      Begins w₀ e call.op → call.conn = some c → Calls w₀ w τ w.rpc.calls.length call (w.body τ) b →
      Sends cfg w₀ e w → Move cfg w₀ e w ((w.launched call c).setBody τ b)
  | refuse {call : Call} : w.rpc = w₀.rpc → Framed cfg w call → Begins w₀ e call.op →
      Fitting call → call.conn = none → Move cfg w₀ e w (w.refused call)
  | await {k : ℕ} {deadline : ℚ} {call : Call} : w.rpc.calls[k]? = some call →
      call.phase = .sending → Move cfg w₀ e w { w with rpc := w.rpc.await k deadline }
  | endCall {k : ℕ} {call : Call} {outcome : Outcome} : w.rpc = w₀.rpc →
      w.rpc.calls[k]? = some call → call.owner = .application → Ends w₀ e k call outcome →
      Move cfg w₀ e w (w.endCall cfg k outcome)
  | resume {τ k : ℕ} {call : Call} {outcome : Outcome} {b : Body} : Acts w₀ e τ →
      w.rpc = w₀.rpc → w.rpc.calls[k]? = some call → call.owner.task = some τ →
      Ends w₀ e k call outcome → Resumes τ k outcome (w.body τ) b →
      Move cfg w₀ e w ((w.endCall cfg k outcome).setBody τ b)
  | settle {σ c : ℕ} {f : Inbound} {key : Key} : Resolves w₀ e σ c f →
      w.rpc.pending = w₀.rpc.pending → w.body σ = w₀.body σ →
      cfg.dialect.slotOf f = some key →
      Move cfg w₀ e w { w with rpc := { w.rpc with pending := (w.rpc.pending.settle key f).2 } }
  | failAll (exc : Option Exc) : w.running = true →
      Move cfg w₀ e w { w with rpc := w.rpc.failAll (World.asConnectionError exc) }
  | cancelAll : w.conn = none → Move cfg w₀ e w { w with rpc := w.rpc.cancelAll }

/-- A chain of moves of one step. -/
abbrev Moves (cfg : Config) (w₀ : World) (e : Event) : World → World → Prop :=
  Relation.ReflTransGen (Move cfg w₀ e)

end ProxyClient.Websocket
