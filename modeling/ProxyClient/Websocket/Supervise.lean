import ProxyClient.Websocket.Backoff
import ProxyClient.Websocket.ReadLoop

/-!
# What a step makes of a supervise task

`_supervise` keeps its count of attempts from one return of `_pump` to the next, and the
reconnect policy is called right after such a return. A step therefore either takes the task to
`pumpReturned`, or does the same to it whatever the policy is.
-/

namespace ProxyClient.Websocket

/-- A client with another reconnect policy, and the same in everything else. -/
def Config.withPolicy (cfg : Config) (policy : Option (ℕ → Policy)) : Config :=
  { cfg with reconnect := policy }

/-- A supervise task is in the sleep before a reconnect. -/
def SuperviseAt.backsOff : SuperviseAt → Bool
  | backingOff _ => true
  | _ => false

variable {cfg : Config} {w w' : World} {e : Event} {σ a c k : ℕ}

/-- The policy has nothing to do with the dialect. -/
@[simp] theorem dialect_withPolicy (policy : Option (ℕ → Policy)) :
    (cfg.withPolicy policy).dialect = cfg.dialect := rfl

/-- A request does not consult the policy. -/
theorem perform_withPolicy (policy : Option (ℕ → Policy)) (owner : Owner) (op : Operation) :
    w.perform (cfg.withPolicy policy) owner op = w.perform cfg owner op := rfl

/-- Nor does the end of a call. -/
theorem endCall_withPolicy (policy : Option (ℕ → Policy)) (outcome : Outcome) :
    w.endCall (cfg.withPolicy policy) k outcome = w.endCall cfg k outcome := rfl

/-- What a supervise task with the count `a` makes of a state, as a function of the policy. -/
inductive Steers (cfg : Config) (w : World) (σ a : ℕ) : (Option (ℕ → Policy) → World) → Prop
  /-- `_pump` has returned. -/
  | returned (conns : List Connection) (rpc : Rpc) (lastError : Option Exc) :
      Steers cfg w σ a fun policy => World.pumpReturned (cfg.withPolicy policy)
        { w with conns := conns, rpc := rpc } σ a lastError
  /-- The task goes on with the same count. -/
  | goes {w' : World} {pc : SuperviseAt} : w'.body σ = .supervise a pc → pc.backsOff = false →
      Steers cfg w σ a fun _ => w'
  /-- The task of a client that was stopped ends. -/
  | ends {w' : World} : w'.running = false → w'.body σ = .finished → Steers cfg w σ a fun _ => w'

namespace Steers

variable {F : Option (ℕ → Policy) → World}

/-- The decision is taken in the state that the frame at hand leaves behind. -/
theorem after {conns : List Connection} {rpc : Rpc}
    (h : Steers cfg { w with conns := conns, rpc := rpc } σ a F) : Steers cfg w σ a F := by
  cases h with
  | returned conns' rpc' lastError => exact .returned conns' rpc' lastError
  | goes hb hpc => exact .goes hb hpc
  | ends hrun hb => exact .ends hrun hb

/-- A task that goes on to a suspension point other than a sleep keeps its count. -/
theorem setBody {pc : SuperviseAt} (hlt : σ < w'.tasks.length) (hpc : pc.backsOff = false) :
    Steers cfg w σ a fun _ => w'.setBody σ (.supervise a pc) :=
  .goes (World.body_setBody_self _ hlt) hpc

/-- The task of a stopped client may end. -/
theorem finish (hlt : σ < w.tasks.length) (hrun : w.running = false) :
    Steers cfg w σ a fun _ => w.finish σ :=
  .ends hrun (World.body_setBody_self _ hlt)

/-- When `_pump` returns, the policy is asked, and nothing else depends on it. -/
theorem pumpReturned (lastError : Option Exc) :
    Steers cfg w σ a fun policy => w.pumpReturned (cfg.withPolicy policy) σ a lastError :=
  .returned w.conns w.rpc lastError

/-- Entering `recv`, the task reads on without asking the policy, or `_pump` has raised. -/
theorem read (hlt : σ < w.tasks.length) :
    Steers cfg w σ a fun policy => w.read (cfg.withPolicy policy) σ a c := by
  by_cases hother : w.readByOther σ c = true
  · simp only [World.read, hother, if_true]
    exact .pumpReturned _
  · simp only [World.read, hother]
    exact .setBody hlt rfl

/-- At the loop head of `_supervise` the task enters the pump, or `_pump` has raised. -/
theorem beginPump (hlt : σ < w.tasks.length) :
    Steers cfg w σ a fun policy => w.beginPump (cfg.withPolicy policy) σ a := by
  by_cases hrun : w.running = true
  · cases hconn : w.conn with
    | none =>
      simp only [World.beginPump, hrun, hconn, if_true]
      exact .pumpReturned _
    | some c =>
      by_cases hattached : (w.conns[c]?.map Connection.attached).getD false = true
      · simp only [World.beginPump, hrun, hconn, hattached, if_true]
        exact .read hlt
      · simp only [World.beginPump, hrun, hconn, hattached, if_true]
        exact .pumpReturned _
  · simp only [World.beginPump, hrun]
    exact .finish hlt (by simpa using hrun)

/-- The loop of the replay keeps the count until it is through. -/
theorem replayNext (hlt : σ < w.tasks.length) (entries : List Entry) :
    Steers cfg w σ a fun policy => w.replayNext (cfg.withPolicy policy) σ a entries := by
  cases entries with
  | nil => exact .beginPump hlt
  | cons entry rest =>
    obtain ⟨channel, params⟩ := entry
    simp only [World.replayNext, perform_withPolicy]
    rcases perform_cases cfg w (.replay σ) (.subscribe channel (some params) false) with
      ⟨err, -, hperform⟩ | ⟨call, -, -, -, -, hperform⟩ | ⟨call, c, -, -, -, -, hperform⟩
    · rw [hperform]
      exact .setBody hlt rfl
    · rw [hperform]
      exact .setBody hlt rfl
    · rw [hperform]
      exact .setBody hlt rfl

/-- The handlers of a frame keep the count, and the task reads on after the last of them. -/
theorem runHandlers {f : Inbound} {handlers : List ℕ} {wildcard : Bool}
    (hlt : σ < w.tasks.length) : Steers cfg w σ a fun policy =>
      w.runHandlers (cfg.withPolicy policy) σ a c f handlers wildcard := by
  cases handlers with
  | cons h rest => exact .setBody hlt rfl
  | nil =>
    cases wildcard with
    | false => exact .read hlt
    | true =>
      cases hwild : (w.handlers.lookup "*").getD [] with
      | cons h rest =>
        simp only [World.runHandlers, hwild, if_true]
        exact .setBody hlt rfl
      | nil =>
        simp only [World.runHandlers, hwild, if_true]
        exact .read hlt

/-- `_deliver` asks the policy only if it raises. -/
theorem deliver {f : Inbound} (hlt : σ < w.tasks.length) :
    Steers cfg w σ a fun policy => w.deliver (cfg.withPolicy policy) σ a c f := by
  by_cases hwanted :
      cfg.dialect.channelOf f.fields = .str "heartbeat" ∧ "heartbeat" ∉ w.handlers
  · simp only [World.deliver, dialect_withPolicy, hwanted, not_false_eq_true, and_self, if_true]
    exact .read hlt
  · cases hof : w.handlersOf (cfg.dialect.channelOf f.fields) with
    | error err =>
      simp only [World.deliver, dialect_withPolicy, hwanted, hof, if_false]
      exact .pumpReturned _
    | ok handlers =>
      simp only [World.deliver, dialect_withPolicy, hwanted, hof, if_false]
      exact .runHandlers hlt

/-- `_dispatch` asks the policy only if it raises. -/
theorem dispatch {f : Inbound} (hlt : σ < w.tasks.length) :
    Steers cfg w σ a fun policy => w.dispatch (cfg.withPolicy policy) σ a c f := by
  by_cases hobject : ∃ fields, f.raw = .json (.obj fields)
  · obtain ⟨fields, hraw⟩ := hobject
    cases hresolve : w.rpc.pending.resolve f (cfg.dialect.responseKey f.fields) with
    | error err =>
      simp only [World.dispatch, hraw, dialect_withPolicy, World.modifyConn_rpc, hresolve]
      exact .returned _ _ _
    | ok result =>
      obtain ⟨consumed, pending⟩ := result
      have hdispatch (policy : Option (ℕ → Policy)) :
          w.dispatch (cfg.withPolicy policy) σ a c f =
            if consumed = true then (w.offered c f pending).read (cfg.withPolicy policy) σ a c
            else (w.offered c f pending).deliver (cfg.withPolicy policy) σ a c f :=
        dispatch_of_resolve hraw hresolve
      simp only [hdispatch]
      cases consumed with
      | true => exact after (read hlt)
      | false => exact after (deliver hlt)
  · have hreturned (policy : Option (ℕ → Policy)) :
        w.dispatch (cfg.withPolicy policy) σ a c f =
          w.pumpReturned (cfg.withPolicy policy) σ a (some (.py .attributeError)) := by
      unfold World.dispatch
      split
      · rename_i fields hraw
        exact absurd ⟨fields, hraw⟩ hobject
      · rfl
    simp only [hreturned]
    exact pumpReturned _

/-- When `open()` of a reconnect returned, the replay goes on with the same count. -/
theorem opened {pc : SuperviseAt} (hb : w.body σ = .supervise a pc) (hlt : σ < w.tasks.length) :
    Steers cfg w σ a fun policy => w.opened (cfg.withPolicy policy) σ c := by
  set w₁ : World := w.modifyConn c (fun conn =>
    { conn with connectedAt := some w.now, registryAtOpen := w.subscriptions })
  have hb₁ : w₁.body σ = .supervise a pc := hb
  have hopened (policy : Option (ℕ → Policy)) : w.opened (cfg.withPolicy policy) σ c =
      w₁.replayNext (cfg.withPolicy policy) σ a w.subscriptions := by
    simp only [World.opened]
    rw [hb₁]
  simp only [hopened]
  exact after (replayNext (w := w₁) hlt w.subscriptions)

/-- When `open()` of a reconnect raised, the task enters the pump with the same count. -/
theorem openFailed {pc : SuperviseAt} (hb : w.body σ = .supervise a pc)
    (hlt : σ < w.tasks.length) :
    Steers cfg w σ a fun policy => w.openFailed (cfg.withPolicy policy) σ := by
  simp only [World.openFailed, hb]
  exact beginPump hlt

/-- `open()` of a reconnect is suspended at its next stage. -/
theorem setStage {stage stage' : OpenStage} (hb : w'.body σ = .supervise a (.opening c stage))
    (hlt : σ < w'.tasks.length) : Steers cfg w σ a fun _ => w'.setStage σ stage' := by
  simp only [World.setStage, hb]
  exact setBody hlt rfl

end Steers

/-- A `CancelledError` ends the supervise task outside of the pump. -/
inductive Cancels (w : World) (σ : ℕ) : Event → Prop
  /-- A `stop()` cancelled the task. -/
  | task : (w.body σ).pumps = none → Cancels w σ (.deliverCancel σ)
  /-- A `stop()` cancelled the future of a call of the replay. -/
  | future {a k : ℕ} {rest : List Entry} : w.body σ = .supervise a (.replaying k rest) →
      w.rpc.future k = some .cancelled → Cancels w σ (.resume k)

/-- What a step makes of the supervise task that takes it, as a function of the policy. -/
inductive Drives (cfg : Config) (w : World) (e : Event) (σ a : ℕ) :
    (Option (ℕ → Policy) → Option World) → Prop
  | disabled : Drives cfg w e σ a fun _ => none
  | steers {F : Option (ℕ → Policy) → World} : Steers cfg w σ a F →
      Drives cfg w e σ a fun policy => some (F policy)
  | cancels {w' : World} : Cancels w σ e → w'.body σ = .finished →
      Drives cfg w e σ a fun _ => some w'

namespace Drives

variable {pc : SuperviseAt}

/-- Inside `open()` the task goes on with the same count, or `_pump` has raised after it. -/
theorem openStep (hb : w.body σ = .supervise a pc) (hlt : σ < w.tasks.length) :
    Drives cfg w e σ a fun policy => w.openStep (cfg.withPolicy policy) σ e := by
  have hfailed (conns : List Connection) : Drives cfg w e σ a fun policy =>
      some (World.openFailed (cfg.withPolicy policy) { w with conns := conns } σ) :=
    .steers (.after (.openFailed (w := { w with conns := conns }) hb hlt))
  cases pc with
  | opening c stage =>
    have hopening : w.opening? σ = some (c, stage) := by simp [World.opening?, hb]
    cases stage with
    | connecting =>
      cases e with
      | connected τ =>
        simp only [World.openStep, hopening]
        have hstage : Steers cfg w σ a fun _ => World.setStage
            (w.modifyConn c (fun conn => conn.connect.write .auth)) σ .sendingAuth :=
          .setStage hb hlt
        exact .steers hstage
      | connectFailed τ =>
        simp only [World.openStep, hopening]
        exact hfailed w.conns
      | _ =>
        simp only [World.openStep, hopening]
        exact .disabled
    | sendingAuth =>
      cases e with
      | authSent τ =>
        simp only [World.openStep, hopening]
        split
        · split
          · exact hfailed w.conns
          · have hstage : Steers cfg w σ a fun _ =>
                w.setStage σ (.awaitingReply (w.now + cfg.timeout)) := .setStage hb hlt
            exact .steers hstage
        · exact .disabled
      | authSendFailed τ =>
        simp only [World.openStep, hopening]
        split
        · exact .disabled
        · exact hfailed w.conns
      | _ =>
        simp only [World.openStep, hopening]
        exact .disabled
    | awaitingReply deadline =>
      cases e with
      | authReply τ =>
        cases hinbox : w.conns[c]?.map Connection.inbox with
        | none =>
          simp only [World.openStep, hopening, hinbox]
          exact .disabled
        | some inbox =>
          cases inbox with
          | nil =>
            simp only [World.openStep, hopening, hinbox]
            exact .disabled
          | cons f inbox =>
            cases hreply : handshakeReply f.raw with
            | ok _ =>
              simp only [World.openStep, hopening, hinbox, hreply]
              exact .steers (.after (.opened hb hlt))
            | error exc =>
              simp only [World.openStep, hopening, hinbox, hreply]
              exact hfailed _
      | authTimeout τ =>
        simp only [World.openStep, hopening]
        split
        · exact hfailed w.conns
        · exact .disabled
      | authClosed τ =>
        simp only [World.openStep, hopening]
        cases w.sock c with
        | closed clean => exact hfailed w.conns
        | _ => exact .disabled
      | _ =>
        simp only [World.openStep, hopening]
        exact .disabled
  | _ =>
    have hopening : w.opening? σ = none := by simp [World.opening?, hb]
    simp only [World.openStep, hopening]
    exact .disabled

/-- `recv` returns a frame to the pump. -/
theorem recvStep (hb : w.body σ = .supervise a pc) (hlt : σ < w.tasks.length) :
    Drives cfg w e σ a fun policy => w.recvStep (cfg.withPolicy policy) σ := by
  cases pc with
  | reading c =>
    cases hinbox : w.conns[c]?.map Connection.inbox with
    | none =>
      simp only [World.recvStep, hb, hinbox]
      exact .disabled
    | some inbox =>
      cases inbox with
      | nil =>
        simp only [World.recvStep, hb, hinbox]
        exact .disabled
      | cons f inbox =>
        simp only [World.recvStep, hb, hinbox]
        split
        · cases f.raw with
          | undecodable text => exact .steers (.goes hb rfl)
          | unloadable => exact .steers (.returned _ _ _)
          | json msg => exact .steers (.setBody hlt rfl)
        · exact .steers (.returned _ _ _)
  | _ =>
    simp only [World.recvStep, hb]
    exact .disabled

/-- The pump notices that the socket is closed. -/
theorem socketEndStep (hb : w.body σ = .supervise a pc) :
    Drives cfg w e σ a fun policy => w.socketEndStep (cfg.withPolicy policy) σ := by
  cases pc with
  | reading c =>
    simp only [World.socketEndStep, hb]
    cases w.sock c with
    | closed clean =>
      cases clean with
      | true => exact .steers (.pumpReturned _)
      | false => exact .steers (.pumpReturned _)
    | _ => exact .disabled
  | _ =>
    simp only [World.socketEndStep, hb]
    exact .disabled

/-- A callback awaits a call of its own client. -/
theorem callbackCallStep {op : Operation} (hb : w.body σ = .supervise a pc)
    (hlt : σ < w.tasks.length) :
    Drives cfg w e σ a fun policy => w.callbackCallStep (cfg.withPolicy policy) σ op := by
  cases pc with
  | inCallback c f cb =>
    simp only [World.callbackCallStep, hb, perform_withPolicy]
    rcases perform_cases cfg w (.callback σ) op with
      ⟨err, -, hperform⟩ | ⟨call, -, -, -, -, hperform⟩ | ⟨call, c', -, -, -, -, hperform⟩
    · rw [hperform]
      exact .steers (.goes hb rfl)
    · rw [hperform]
      exact .steers (.goes hb rfl)
    · rw [hperform]
      exact .steers (.setBody hlt rfl)
  | _ =>
    simp only [World.callbackCallStep, hb]
    exact .disabled

/-- A callback ends, and the task goes on with the dispatch. -/
theorem callbackEndStep {result : CallbackResult} (hb : w.body σ = .supervise a pc)
    (hlt : σ < w.tasks.length) :
    Drives cfg w e σ a fun policy => w.callbackEndStep (cfg.withPolicy policy) σ result := by
  cases pc with
  | inCallback c f cb =>
    simp only [World.callbackEndStep, hb]
    cases cb with
    | onMessage =>
      cases result with
      | cancelled => exact .steers (.pumpReturned _)
      | returned => exact .steers (.dispatch hlt)
      | raised => exact .steers (.dispatch hlt)
    | handler h rest wildcard =>
      cases result with
      | cancelled => exact .steers (.pumpReturned _)
      | returned => exact .steers (.runHandlers hlt)
      | raised => exact .steers (.runHandlers hlt)
  | _ =>
    simp only [World.callbackEndStep, hb]
    exact .disabled

/-- The first step of the task enters the pump. -/
theorem runStep (hb : w.body σ = .supervise a pc) (hlt : σ < w.tasks.length) :
    Drives cfg w e σ a fun policy => w.runStep (cfg.withPolicy policy) σ := by
  cases pc with
  | ready =>
    simp only [World.runStep, hb]
    exact .steers (.beginPump hlt)
  | _ =>
    simp only [World.runStep, hb]
    exact .disabled

/-- A sleep of the task is over. -/
theorem wakeStep (hb : w.body σ = .supervise a pc) (hlt : σ < w.tasks.length) :
    Drives cfg w e σ a fun policy => w.wakeStep (cfg.withPolicy policy) σ := by
  cases pc with
  | backingOff wake =>
    simp only [World.wakeStep, hb]
    split
    · split
      · exact .steers (.setBody hlt rfl)
      · rename_i hrun
        exact .steers (.finish hlt (by simpa using hrun))
    · exact .disabled
  | replayGap wake rest =>
    simp only [World.wakeStep, hb]
    split
    · exact .steers (.replayNext hlt rest)
    · exact .disabled
  | _ =>
    simp only [World.wakeStep, hb]
    exact .disabled

/-- A call that the task awaits goes on or ends. -/
theorem callStep (hsound : Sound cfg w) (hb : w.body σ = .supervise a pc)
    (hlt : σ < w.tasks.length) {call : Call} (he : e.callNo = some k)
    (hcall : w.rpc.calls[k]? = some call) (htask : call.owner.task = some σ) :
    Drives cfg w e σ a fun _ => w.callStep cfg k e := by
  cases hstep : w.callStep cfg k e with
  | none => exact .disabled
  | some w' =>
    obtain ⟨call', hcall', hended, hcases⟩ := callStep_cases he hstep
    obtain rfl := Option.some.inj (hcall'.symm.trans hcall)
    have hawaits := hsound.linked.awaited hcall hended htask
    have hlt' {outcome : Outcome} : σ < (w.endCall cfg k outcome).tasks.length := by simpa
    rcases Body.awaits_cases hawaits with
      ⟨howner, a', c, f, cb, hb'⟩ | ⟨howner, a', rest, hb'⟩ | ⟨-, conn, hb'⟩
    · obtain ⟨rfl, rfl⟩ := Body.supervise.inj (hb.symm.trans hb')
      rcases hcases with ⟨-, deadline, rfl⟩ | ⟨outcome, -, rfl⟩
      · exact .steers (.goes hb rfl)
      · simp only [World.conclude, hcall, howner, World.resumeOwner, body_endCall, hb, if_true]
        exact .steers (.setBody hlt' rfl)
    · obtain ⟨rfl, rfl⟩ := Body.supervise.inj (hb.symm.trans hb')
      rcases hcases with ⟨-, deadline, rfl⟩ | ⟨outcome, hends, rfl⟩
      · exact .steers (.goes hb rfl)
      · simp only [World.conclude, hcall, howner, World.resumeOwner, body_endCall, hb, if_true]
        split
        · have hcancels : Cancels w σ e := by
            cases hends with
            | failed _ _ hfuture => cases hsound.rpc.failed hfuture
            | cancelled he _ hfuture => exact he ▸ .future hb hfuture
            | callerCancelled _ howner' => rw [howner] at howner'; cases howner'
            | taskCancelled he' => rw [he'] at he; cases he
          exact .cancels hcancels (World.body_setBody_self _ hlt')
        · exact .steers (.setBody hlt' rfl)
    · rw [hb] at hb'
      cases hb'

/-- A `CancelledError` is thrown into the task. -/
theorem cancelStep (hb : w.body σ = .supervise a pc) (hlt : σ < w.tasks.length) :
    Drives cfg w (.deliverCancel σ) σ a fun policy => w.cancelStep (cfg.withPolicy policy) σ := by
  have hfinished {w' : World} (hpumps : (w.body σ).pumps = none)
      (h : w'.body σ = .finished) : Drives cfg w (.deliverCancel σ) σ a fun _ => some w' :=
    .cancels (.task hpumps) h
  cases pc with
  | reading c =>
    simp only [World.cancelStep, hb]
    exact .steers (.pumpReturned _)
  | inCallback c f cb =>
    simp only [World.cancelStep, hb]
    exact .steers (.setBody hlt rfl)
  | inCallbackCall c f cb k =>
    simp only [World.cancelStep, hb, endCall_withPolicy]
    exact .steers (.setBody (by simpa) rfl)
  | replaying k rest =>
    simp only [World.cancelStep, hb, endCall_withPolicy]
    exact hfinished (by rw [hb]; rfl) (World.body_setBody_self _ (by simpa))
  | _ =>
    simp only [World.cancelStep, hb]
    exact hfinished (by rw [hb]; rfl) (World.body_setBody_self _ hlt)

/-- A task with a `CancelledError` on its way takes no other step. -/
theorem guard {next : Option (ℕ → Policy) → Option World} (h : Drives cfg w e σ a next) :
    Drives cfg w e σ a fun policy => if w.isCancelled σ then none else next policy := by
  by_cases hcancelled : w.isCancelled σ = true
  · simp only [hcancelled, if_true]
    exact .disabled
  · simp only [hcancelled]
    exact h

/-- Every label that resumes the task steers it in one of these ways. -/
theorem of_task (hb : w.body σ = .supervise a pc) (hlt : σ < w.tasks.length)
    (htask : e.task = some σ) :
    Drives cfg w e σ a fun policy => step (cfg.withPolicy policy) w e := by
  cases e <;> cases htask
  case connected | connectFailed | authSent | authSendFailed | authReply | authTimeout
      | authClosed => exact guard (openStep hb hlt)
  case cancelStart =>
    simp only [step, hb]
    exact .disabled
  case run => exact guard (runStep hb hlt)
  case recv => exact guard (recvStep hb hlt)
  case socketEnd => exact guard (socketEndStep hb)
  case callbackCall op => exact guard (callbackCallStep hb hlt)
  case callbackEnd result => exact guard (callbackEndStep hb hlt)
  case wake => exact guard (wakeStep hb hlt)
  case closeDone =>
    simp only [step, World.closeDoneStep, hb, ite_self]
    exact .disabled
  case stopStep =>
    simp only [step, World.stopStep, hb]
    exact .disabled
  case deliverCancel =>
    by_cases hcancelled : w.isCancelled σ = true
    · simp only [step, hcancelled, if_true]
      exact cancelStep hb hlt
    · simp only [step, hcancelled]
      exact .disabled

/-- What any step makes of the supervise task that takes it. -/
theorem of_acts (hsound : Sound cfg w) (hb : w.body σ = .supervise a pc) (hact : Acts w e σ) :
    Drives cfg w e σ a fun policy => step (cfg.withPolicy policy) w e := by
  have hlt : σ < w.tasks.length := World.lt_of_body_ne (by simp [hb])
  cases hact with
  | stop => omega
  | task htask => exact of_task hb hlt htask
  | @call e k call _ he hcall htask =>
    have hstep := callStep hsound hb hlt he hcall htask
    cases e <;> cases he <;> exact hstep

end Drives

/-! ## Calls of the policy -/

/-- A call of the reconnect policy, with its argument and what led to it. -/
structure PolicyCall where
  /-- The number it is given. -/
  attempt : ℕ
  /-- How long the connection counts as up. -/
  elapsed : ℚ
  /-- The connection that has ended. -/
  conn : Option ℕ
  deriving DecidableEq

/-- The call of the policy that a supervise task makes in a step. A policy that asks for a delay
would take the task to the sleep, with the number it was given as its count. -/
def policyCall (cfg : Config) (σ : ℕ) (w : World) (e : Event) : Option PolicyCall :=
  match cfg.reconnect, w.body σ, step (cfg.withPolicy (some fun _ => .wait 1)) w e with
  | some _, .supervise _ pc, some u =>
    match u.body σ with
    | .supervise attempt (.backingOff _) =>
      if pc.backsOff then none else some ⟨attempt, u.connectedDuration, u.conn⟩
    | _ => none
  | _, _, _ => none

/-- What the policy decides after `_pump` returned to a running client. -/
theorem pumpReturned_cases {policy : ℕ → Policy} (hlt : σ < w.tasks.length)
    (hrun : w.running = true) (hpolicy : cfg.reconnect = some policy) (lastError : Option Exc) :
    (policy (w.nextAttempt a) = .giveUp ∧ (w.pumpReturned cfg σ a lastError).running = false ∧
      (w.pumpReturned cfg σ a lastError).body σ = .finished) ∨
    (policy (w.nextAttempt a) = .raises ∧
      (w.pumpReturned cfg σ a lastError).body σ = .finished) ∨
    ∃ delay, policy (w.nextAttempt a) = .wait delay ∧
      (∃ pc, (w.pumpReturned cfg σ a lastError).body σ = .supervise (w.nextAttempt a) pc) ∧
      w.pumpReturned cfg σ a lastError =
        if 0 < delay then
          World.setBody { w with rpc := w.rpc.failAll (World.asConnectionError lastError) } σ
            (.supervise (w.nextAttempt a) (.backingOff (w.now + delay)))
        else
          World.beginReconnect
            { w with rpc := w.rpc.failAll (World.asConnectionError lastError) } σ
            (w.nextAttempt a) := by
  set w₁ : World := { w with rpc := w.rpc.failAll (World.asConnectionError lastError) } with hw₁
  have hnext : (if reconnectResetAfter ≤ w₁.connectedDuration then 0 else a + 1) =
    w.nextAttempt a := rfl
  unfold World.pumpReturned
  rw [if_pos hrun]
  simp only
  rw [← hw₁]
  cases hanswer : policy (w.nextAttempt a) with
  | giveUp =>
    have hdecide : w₁.decideReconnect cfg a = .giveUp := by
      simp only [World.decideReconnect, hpolicy, hnext, hanswer]
    rw [hdecide]
    exact .inl ⟨rfl, rfl, World.body_setBody_self _ hlt⟩
  | raises =>
    have hdecide : w₁.decideReconnect cfg a = .raises := by
      simp only [World.decideReconnect, hpolicy, hnext, hanswer]
    rw [hdecide]
    exact .inr (.inl ⟨rfl, World.body_setBody_self _ hlt⟩)
  | wait delay =>
    have hdecide : w₁.decideReconnect cfg a = .reconnect (w.nextAttempt a) delay := by
      simp only [World.decideReconnect, hpolicy, hnext, hanswer]
    rw [hdecide]
    refine .inr (.inr ⟨delay, rfl, ?_, rfl⟩)
    simp only
    split
    · exact ⟨_, World.body_setBody_self _ hlt⟩
    · exact ⟨_, World.body_setBody_self _ hlt⟩

/-- What a step makes of the supervise task that takes it, and the call of the policy in it. -/
inductive Turns (cfg : Config) (w : World) (e : Event) (σ a : ℕ) (w' : World) : Prop
  /-- `_pump` has returned to a running client, and the policy is called. -/
  | asks {policy : ℕ → Policy} {conns : List Connection} {rpc : Rpc} {lastError : Option Exc} :
      cfg.reconnect = some policy → w.running = true →
      policyCall cfg σ w e = some
        ⟨World.nextAttempt { w with conns := conns, rpc := rpc } a,
          World.connectedDuration { w with conns := conns, rpc := rpc }, w.conn⟩ →
      w' = World.pumpReturned cfg { w with conns := conns, rpc := rpc } σ a lastError →
      Turns cfg w e σ a w'
  /-- The task goes on with the same count. -/
  | goes {pc : SuperviseAt} : policyCall cfg σ w e = none → w'.body σ = .supervise a pc →
      Turns cfg w e σ a w'
  /-- The task of a client that does not run ends. -/
  | ends : policyCall cfg σ w e = none → w'.running = false → w'.body σ = .finished →
      Turns cfg w e σ a w'
  | cancelled : policyCall cfg σ w e = none → Cancels w σ e → w'.body σ = .finished →
      Turns cfg w e σ a w'

/-- The policy is called only where a policy that asks for a delay takes the task to the
sleep. -/
theorem policyCall_eq_none {u : World}
    (hstep : step (cfg.withPolicy (some fun _ => .wait 1)) w e = some u)
    (h : ∀ attempt wake, u.body σ ≠ .supervise attempt (.backingOff wake)) :
    policyCall cfg σ w e = none := by
  unfold policyCall
  split
  · rename_i u' _ hb hstep'
    obtain rfl := Option.some.inj (hstep.symm.trans hstep')
    split
    · rename_i hbacksOff
      exact absurd hbacksOff (h _ _)
    · rfl
  · rfl

/-- A policy that asks for a delay takes the task to the sleep. -/
theorem pumpReturned_wait (hlt : σ < w.tasks.length) (hrun : w.running = true)
    (lastError : Option Exc) :
    w.pumpReturned (cfg.withPolicy (some fun _ => .wait 1)) σ a lastError =
      World.setBody { w with rpc := w.rpc.failAll (World.asConnectionError lastError) } σ
        (.supervise (w.nextAttempt a) (.backingOff (w.now + 1))) := by
  have hpolicy : (cfg.withPolicy (some fun _ => .wait 1)).reconnect = some fun _ => .wait 1 := rfl
  rcases pumpReturned_cases (a := a) hlt hrun hpolicy lastError with
    ⟨hgive, -⟩ | ⟨hraises, -⟩ | ⟨delay, hwait, -, hnext⟩
  · cases hgive
  · cases hraises
  · obtain rfl := Policy.wait.inj hwait
    rw [hnext, if_pos (by norm_num)]

/-- The task of a stopped client ends when `_pump` returns. -/
theorem pumpReturned_stopped (hrun : w.running = false) (lastError : Option Exc) :
    w.pumpReturned cfg σ a lastError = w.finish σ := by
  simp [World.pumpReturned, hrun]

namespace Turns

variable {pc : SuperviseAt}

/-- A step in which `_pump` returns asks the policy about the next attempt. -/
theorem of_returned {conns : List Connection} {rpc : Rpc} {lastError : Option Exc}
    (hb : w.body σ = .supervise a pc) (hpc : pc.backsOff = false)
    (hprobe : step (cfg.withPolicy (some fun _ => .wait 1)) w e =
      some (World.pumpReturned (cfg.withPolicy (some fun _ => .wait 1))
        { w with conns := conns, rpc := rpc } σ a lastError)) :
    Turns cfg w e σ a
      (World.pumpReturned cfg { w with conns := conns, rpc := rpc } σ a lastError) := by
  have hlt : σ < w.tasks.length := World.lt_of_body_ne (by simp [hb])
  set w₁ : World := { w with conns := conns, rpc := rpc }
  have hlt₁ : σ < w₁.tasks.length := hlt
  by_cases hrun : w₁.running = true
  · rw [pumpReturned_wait hlt₁ hrun] at hprobe
    cases hpolicy : cfg.reconnect with
    | none =>
      have hnone : policyCall cfg σ w e = none := by simp [policyCall, hpolicy]
      refine .ends hnone ?_ ?_ <;>
        simp [World.pumpReturned, World.decideReconnect, hrun, hpolicy, World.body, hlt₁]
    | some policy =>
      refine .asks hpolicy hrun ?_ rfl
      have hsleep (pending : Rpc) (wake : ℚ) :
          (World.setBody { w₁ with rpc := pending } σ
            (.supervise (w₁.nextAttempt a) (.backingOff wake))).body σ =
              .supervise (w₁.nextAttempt a) (.backingOff wake) := World.body_setBody_self _ hlt₁
      simp only [policyCall, hpolicy, hb, hprobe, hsleep, hpc]
      rfl
  · have hstopped : w₁.running = false := by simpa using hrun
    have hfinished : (w₁.finish σ).body σ = .finished := World.body_setBody_self _ hlt₁
    rw [pumpReturned_stopped hstopped] at hprobe ⊢
    exact .ends (policyCall_eq_none hprobe (by simp [hfinished])) hstopped hfinished

/-- A step of a task outside of the sleep. -/
theorem of_drives (hb : w.body σ = .supervise a pc) (hpc : pc.backsOff = false)
    (hdrives : Drives cfg w e σ a fun policy => step (cfg.withPolicy policy) w e)
    (h : step cfg w e = some w') : Turns cfg w e σ a w' := by
  generalize hnext : (fun policy => step (cfg.withPolicy policy) w e) = next at hdrives
  have hreal : next cfg.reconnect = some w' := hnext ▸ h
  have hprobe := congrFun hnext (some fun _ => .wait 1)
  cases hdrives with
  | disabled => cases hreal
  | cancels hcancels hb' =>
    obtain rfl := Option.some.inj hreal
    exact .cancelled (policyCall_eq_none hprobe (by simp [hb'])) hcancels hb'
  | steers hsteers =>
    obtain rfl := Option.some.inj hreal
    cases hsteers with
    | returned conns rpc lastError => exact of_returned hb hpc hprobe
    | goes hb' hpc' =>
      refine .goes (policyCall_eq_none hprobe ?_) hb'
      intro attempt wake hsleep
      obtain ⟨-, rfl⟩ := Body.supervise.inj (hb'.symm.trans hsleep)
      cases hpc'
    | ends hrun hb' => exact .ends (policyCall_eq_none hprobe (by simp [hb'])) hrun hb'

/-- A step of a task in the sleep. -/
theorem of_sleep (hb : w.body σ = .supervise a pc) (hpc : pc.backsOff = true)
    (htask : e.task = some σ) (h : step cfg w e = some w') : Turns cfg w e σ a w' := by
  have hlt : σ < w.tasks.length := World.lt_of_body_ne (by simp [hb])
  have hnone : policyCall cfg σ w e = none := by
    unfold policyCall
    split
    · rename_i hb' _
      obtain ⟨-, rfl⟩ := Body.supervise.inj (hb.symm.trans hb')
      split <;> simp_all
    · rfl
  obtain ⟨wake, rfl⟩ : ∃ wake, pc = .backingOff wake := by
    cases pc <;> cases hpc
    exact ⟨_, rfl⟩
  cases e <;> cases htask
  case wake =>
    simp only [step, World.wakeStep, hb] at h
    split at h
    · cases h
    · split at h
      · split at h
        · obtain rfl := Option.some.inj h
          exact .goes hnone (World.body_setBody_self _ hlt)
        · rename_i hstopped
          obtain rfl := Option.some.inj h
          exact .ends hnone (by simpa using hstopped) (World.body_setBody_self _ hlt)
      · cases h
  case deliverCancel =>
    simp only [step, World.cancelStep, hb] at h
    split at h
    · obtain rfl := Option.some.inj h
      exact .cancelled hnone (.task (by rw [hb]; rfl)) (World.body_setBody_self _ hlt)
    · cases h
  all_goals
    simp [step, World.openStep, World.opening?, World.runStep, World.recvStep,
      World.socketEndStep, World.callbackCallStep, World.callbackEndStep, World.closeDoneStep,
      World.stopStep, hb] at h

/-- What any step makes of the supervise task that takes it. -/
theorem of_acts (hsound : Sound cfg w) (hb : w.body σ = .supervise a pc) (hact : Acts w e σ)
    (h : step cfg w e = some w') : Turns cfg w e σ a w' := by
  by_cases hpc : pc.backsOff = true
  · have hlt : σ < w.tasks.length := World.lt_of_body_ne (by simp [hb])
    have hn : (w.body σ).awaits σ = none := by
      rw [hb]
      cases pc <;> cases hpc
      rfl
    exact of_sleep hb hpc (task_of_acts hsound.linked h hact hlt hn) h
  · exact of_drives hb (by simpa using hpc) (.of_acts hsound hb hact) h

end Turns

/-- A task that takes no part in a step calls no policy in it. -/
theorem policyCall_of_not_acts (hsound : Sound cfg w) (hact : ¬Acts w e σ) :
    policyCall cfg σ w e = none := by
  unfold policyCall
  split
  · rename_i u _ hb hprobe
    have hne : w.body σ ≠ .finished := by simp [hb]
    rw [(step_moves hsound.linked hprobe).body_of_not_acts hact hne, hb]
    split
    · rename_i hsleep
      obtain ⟨-, rfl⟩ := Body.supervise.inj hsleep
      rfl
    · rfl
  · rfl

end ProxyClient.Websocket
