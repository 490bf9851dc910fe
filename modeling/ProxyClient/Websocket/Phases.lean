import ProxyClient.Websocket.Drops
import Mathlib.Algebra.Order.Ring.Rat

/-!
# The phases of a call

A call begins in `ws.send`, waits for its future once the send has returned, and ends. The
first transition happens in one step of the transition function only: every other step leaves
the calls that wait as they are or ends them.
-/

namespace ProxyClient.Websocket

variable {cfg : Config} {w₀ w w' : World} {e : Event} {k : ℕ} {call : Call} {deadline : ℚ}

/-! ## Operations that leave all calls alone -/

/-- When `_pump` returns, futures fail and calls go on. -/
@[simp] theorem calls_pumpReturned (cfg : Config) (w : World) (σ a : ℕ) (exc : Option Exc) :
    (w.pumpReturned cfg σ a exc).rpc.calls = w.rpc.calls := by
  unfold World.pumpReturned
  split
  · simp only
    split
    · rfl
    · rfl
    · split <;> rfl
  · rfl

/-- Going back to `recv` concerns no call. -/
@[simp] theorem calls_read (cfg : Config) (w : World) (σ a c : ℕ) :
    (w.read cfg σ a c).rpc.calls = w.rpc.calls := by
  unfold World.read
  split
  · exact calls_pumpReturned cfg w σ a _
  · rfl

/-- Nor does the head of the pump. -/
@[simp] theorem calls_beginPump (cfg : Config) (w : World) (σ a : ℕ) :
    (w.beginPump cfg σ a).rpc.calls = w.rpc.calls := by
  unfold World.beginPump
  split
  · split
    · exact calls_pumpReturned cfg w σ a _
    · split
      · exact calls_read cfg w σ a _
      · exact calls_pumpReturned cfg w σ a _
  · rfl

/-- Calling the next handler concerns no call. -/
@[simp] theorem calls_runHandlers (cfg : Config) (w : World) (σ a c : ℕ) (f : Inbound)
    (hs : List ℕ) (wildcard : Bool) :
    (w.runHandlers cfg σ a c f hs wildcard).rpc.calls = w.rpc.calls := by
  unfold World.runHandlers
  split
  · rfl
  · split
    · split
      · rfl
      · exact calls_read cfg w σ a c
    · exact calls_read cfg w σ a c

/-- Nor does handing a frame to its handlers. -/
@[simp] theorem calls_deliver (cfg : Config) (w : World) (σ a c : ℕ) (f : Inbound) :
    (w.deliver cfg σ a c f).rpc.calls = w.rpc.calls := by
  unfold World.deliver
  simp only
  split
  · exact calls_read cfg w σ a c
  · split
    · exact calls_pumpReturned cfg w σ a _
    · exact calls_runHandlers cfg w σ a c f _ true

/-- A dispatch settles at most a future. -/
@[simp] theorem calls_dispatch (cfg : Config) (w : World) (σ a c : ℕ) (f : Inbound) :
    (w.dispatch cfg σ a c f).rpc.calls = w.rpc.calls := by
  unfold World.dispatch
  split
  · simp only
    split
    · exact calls_pumpReturned cfg _ σ a _
    · split
      · exact calls_read cfg _ σ a c
      · exact calls_deliver cfg _ σ a c f
  · exact calls_pumpReturned cfg w σ a _

/-- The loop of the heartbeat concerns no call. -/
@[simp] theorem calls_heartbeatLoop (cfg : Config) (w : World) (η : ℕ) :
    (w.heartbeatLoop cfg η).rpc.calls = w.rpc.calls := by
  unfold World.heartbeatLoop
  split <;> rfl

/-- Nor does a handshake that failed. -/
@[simp] theorem calls_openFailed (cfg : Config) (w : World) (τ : ℕ) :
    (w.openFailed cfg τ).rpc.calls = w.rpc.calls := by
  unfold World.openFailed
  split
  · exact calls_beginPump cfg w τ _
  · rfl

/-- Nor does the next stage of `open()`. -/
@[simp] theorem calls_setStage (w : World) (τ : ℕ) (stage : OpenStage) :
    (w.setStage τ stage).rpc.calls = w.rpc.calls := by
  unfold World.setStage
  split <;> rfl

/-- Nor does the end of a `start()`. -/
@[simp] theorem calls_started (cfg : Config) (w : World) (τ : ℕ) :
    (w.started cfg τ).rpc.calls = w.rpc.calls := by
  unfold World.started
  simp only
  split <;> rfl

/-- `stop()` cancels futures, and their calls go on. -/
@[simp] theorem calls_stopClose (w : World) (τ : ℕ) :
    (w.stopClose τ).rpc.calls = w.rpc.calls := by
  unfold World.stopClose
  split
  · rfl
  · split <;> rfl

/-- The same holds on its way to the heartbeat task. -/
@[simp] theorem calls_stopHeartbeat (w : World) (τ : ℕ) (heartbeat : Option ℕ) :
    (w.stopHeartbeat τ heartbeat).rpc.calls = w.rpc.calls := by
  unfold World.stopHeartbeat
  split
  · exact calls_stopClose w τ
  · rfl

/-- It holds of `stop()` up to its first suspension. -/
@[simp] theorem calls_beginStop (w : World) : w.beginStop.rpc.calls = w.rpc.calls := by
  unfold World.beginStop
  simp only
  split
  · exact calls_stopHeartbeat _ _ _
  · rfl

/-- A `start()` that begins concerns no call. -/
@[simp] theorem calls_beginStart (w : World) : w.beginStart.rpc.calls = w.rpc.calls := by
  unfold World.beginStart
  split <;> rfl

/-! ## Operations that let no call wait -/

/-- How a call comes out of an operation that lets no call wait. -/
inductive Rpc.From (cfg : Config) (r : Rpc) (k : ℕ) : Call → Prop
  | stays {call : Call} : r.calls[k]? = some call → From cfg r k call
  | ends {call : Call} {outcome : Outcome} : r.calls[k]? = some call →
      From cfg r k { call with phase := .ended outcome }
  | begins {call : Call} : call.timeout = World.timeoutOf cfg call.op →
      (∀ deadline, call.phase ≠ .waiting deadline) → From cfg r k call

/-- Every call of the second state stays, ends, or begins. -/
def Rpc.BeginsNoWait (cfg : Config) (r r' : Rpc) : Prop :=
  ∀ (k : ℕ) (call : Call), r'.calls[k]? = some call → From cfg r k call

namespace Rpc.BeginsNoWait

variable {r r' r'' : Rpc}

/-- Nothing begins where the calls are the same. -/
theorem of_calls (h : r'.calls = r.calls) : BeginsNoWait cfg r r' :=
  fun _ _ hcall => .stays (h ▸ hcall)

/-- No wait begins in two changes when none begins in either. -/
theorem trans (h : BeginsNoWait cfg r r') (h' : BeginsNoWait cfg r' r'') :
    BeginsNoWait cfg r r'' := by
  intro k call hcall
  cases h' k call hcall with
  | stays hmid => exact h k call hmid
  | @ends mid _ hmid =>
    cases h k mid hmid with
    | stays hold => exact .ends hold
    | @ends old _ hold => exact @From.ends cfg r k old _ hold
    | begins htimeout _ => exact .begins htimeout (by simp)
  | begins htimeout hphase => exact .begins htimeout hphase

/-- A call that ends does not wait. -/
theorem finish (r : Rpc) (k : ℕ) (outcome : Outcome) :
    BeginsNoWait cfg r (r.finish k outcome) := by
  intro i c hcall
  cases hk : r.calls[k]? with
  | none => exact .stays (by simpa [Rpc.finish, hk] using hcall)
  | some call =>
    rw [Rpc.calls_finish hk] at hcall
    rcases Rpc.getElem?_modify_cases hcall with ⟨-, hold⟩ | ⟨rfl, old, hold, rfl⟩
    · exact .stays hold
    · exact .ends hold

/-- A request begins by sending its frame, or has ended when it has none to send. -/
theorem perform (cfg : Config) (w : World) (owner : Owner) (op : Operation) :
    BeginsNoWait cfg w.rpc (w.perform cfg owner op).1.rpc := by
  unfold World.perform
  simp only
  split
  · exact of_calls (Rpc.calls_draw w.rpc op)
  · rename_i frame key _
    have hregister (call : Call) (hphase : call.phase = .sending)
        (htimeout : call.timeout = World.timeoutOf cfg call.op) :
        BeginsNoWait cfg w.rpc ((w.rpc.draw op).register call) := by
      intro i c hcall
      rcases Rpc.getElem?_concat_cases hcall with hold | ⟨-, rfl⟩
      · exact .stays (by rwa [Rpc.calls_draw] at hold)
      · exact .begins htimeout (by simp [hphase])
    unfold World.launch
    simp only
    split
    · exact (hregister _ rfl rfl).trans (finish _ _ _)
    · exact hregister _ rfl rfl

/-- The end of a call begins no other call. -/
theorem endCall (cfg : Config) (w : World) (k : ℕ) (outcome : Outcome) :
    BeginsNoWait cfg w.rpc (w.endCall cfg k outcome).rpc := by
  rw [rpc_endCall]
  exact finish w.rpc k outcome

/-- Nor does the coroutine that goes on after it. -/
theorem conclude (cfg : Config) (w : World) (k : ℕ) (outcome : Outcome) :
    BeginsNoWait cfg w.rpc (w.conclude cfg k outcome).rpc := by
  unfold World.conclude
  split
  · exact of_calls rfl
  · rw [rpc_resumeOwner]
    exact endCall cfg w k outcome

/-- A replay begins the call of its next entry, which is sending. -/
theorem replayNext (cfg : Config) (w : World) (σ a : ℕ) (entries : List Entry) :
    BeginsNoWait cfg w.rpc (w.replayNext cfg σ a entries).rpc := by
  unfold World.replayNext
  split
  · exact of_calls (calls_beginPump cfg w σ a)
  · rename_i channel params rest
    have hperform := perform cfg w (.replay σ) (.subscribe channel (some params) false)
    split
    · rename_i hstep
      rwa [hstep] at hperform
    · rename_i hstep
      rwa [hstep] at hperform

/-- A heartbeat begins its ping, which is sending. -/
theorem heartbeatPing (cfg : Config) (w : World) (η : ℕ) :
    BeginsNoWait cfg w.rpc (w.heartbeatPing cfg η).rpc := by
  unfold World.heartbeatPing
  split
  · have hperform := perform cfg w (.heartbeat η) .ping
    simp only
    split
    · rename_i hstep
      rwa [hstep] at hperform
    · rename_i hstep
      rwa [hstep] at hperform
  · exact of_calls rfl

/-- A reconnect that is accepted begins its replay. -/
theorem opened (cfg : Config) (w : World) (τ c : ℕ) :
    BeginsNoWait cfg w.rpc (w.opened cfg τ c).rpc := by
  unfold World.opened
  simp only
  split
  · exact replayNext cfg _ τ _ _
  · exact of_calls (calls_started cfg _ τ)

/-! ### Steps of a task -/

/-- Inside `open()` no request of the application begins to wait. -/
theorem openStep {τ : ℕ} (htask : e.task = some τ) (h : w.openStep cfg τ e = some w') :
    BeginsNoWait cfg w.rpc w'.rpc := by
  obtain ⟨c, stage, -, hopens⟩ := openStep_cases htask h
  cases hopens with
  | connected => exact of_calls (calls_setStage _ τ _)
  | sent => exact of_calls (calls_setStage w τ _)
  | raised => exact of_calls (calls_openFailed cfg w τ)
  | refused => exact of_calls (calls_openFailed cfg _ τ)
  | accepted => exact opened cfg _ τ c

/-- Nor does one in the first step of a task. -/
theorem runStep {τ : ℕ} (h : w.runStep cfg τ = some w') : BeginsNoWait cfg w.rpc w'.rpc := by
  unfold World.runStep at h
  split at h
  · cases h
    exact of_calls (calls_beginPump cfg w τ _)
  · cases h
    exact of_calls (calls_heartbeatLoop cfg w τ)
  · cases h

/-- Nor when a frame is received, for its dispatch only settles futures. -/
theorem recvStep {σ : ℕ} (h : w.recvStep cfg σ = some w') : BeginsNoWait cfg w.rpc w'.rpc := by
  unfold World.recvStep at h
  split at h
  · split at h
    · simp only at h
      split at h
      · split at h
        · cases h
          exact of_calls rfl
        · cases h
          exact of_calls (calls_pumpReturned cfg _ σ _ _)
        · cases h
          exact of_calls rfl
      · cases h
        exact of_calls (calls_pumpReturned cfg _ σ _ _)
    · cases h
  · cases h

/-- A callback begins a request of its own, which is sending. -/
theorem callbackCallStep {σ : ℕ} {op : Operation} (h : w.callbackCallStep cfg σ op = some w') :
    BeginsNoWait cfg w.rpc w'.rpc := by
  have hperform := perform cfg w (.callback σ) op
  unfold World.callbackCallStep at h
  split at h
  · split at h
    · rename_i hstep
      cases h
      rwa [hstep] at hperform
    · rename_i hstep
      cases h
      rwa [hstep] at hperform
  · cases h

/-- The next callback, or the pump, begins none. -/
theorem callbackEndStep {σ : ℕ} {result : CallbackResult}
    (h : w.callbackEndStep cfg σ result = some w') : BeginsNoWait cfg w.rpc w'.rpc := by
  unfold World.callbackEndStep at h
  split at h
  · split at h
    · cases h
      exact of_calls (calls_pumpReturned cfg w σ _ _)
    · cases h
      exact of_calls (calls_dispatch cfg w σ _ _ _)
    · cases h
      exact of_calls (calls_runHandlers cfg w σ _ _ _ _ _)
  · cases h

/-- A task that wakes begins a reconnect, a replay or a ping. -/
theorem wakeStep {τ : ℕ} (h : w.wakeStep cfg τ = some w') : BeginsNoWait cfg w.rpc w'.rpc := by
  unfold World.wakeStep at h
  split at h
  · split at h
    · split at h
      · cases h
        exact of_calls rfl
      · cases h
        exact of_calls rfl
    · cases h
  · split at h
    · cases h
      exact replayNext cfg w τ _ _
    · cases h
  · split at h
    · cases h
      exact heartbeatPing cfg w τ
    · cases h
  · split at h
    · cases h
      exact of_calls (calls_heartbeatLoop cfg w τ)
    · cases h
  · cases h

/-- After a close the heartbeat sleeps, and `stop()` ends. -/
theorem closeDoneStep {τ : ℕ} (h : w.closeDoneStep cfg τ = some w') :
    BeginsNoWait cfg w.rpc w'.rpc := by
  unfold World.closeDoneStep at h
  split at h
  · cases h
    exact of_calls (calls_heartbeatLoop cfg _ τ)
  · cases h
    exact of_calls rfl
  · cases h

/-- `stop()` cancels what waits. -/
theorem stopStep {τ : ℕ} (h : w.stopStep τ = some w') : BeginsNoWait cfg w.rpc w'.rpc := by
  unfold World.stopStep at h
  split at h
  · split at h
    · cases h
    · cases h
      exact of_calls (calls_stopHeartbeat w τ _)
  · split at h
    · cases h
    · cases h
      exact of_calls (calls_stopClose w τ)
  · cases h

/-- A cancellation ends the call that its task awaits. -/
theorem cancelStep {τ : ℕ} (h : w.cancelStep cfg τ = some w') : BeginsNoWait cfg w.rpc w'.rpc := by
  unfold World.cancelStep at h
  split at h
  · cases h
    exact of_calls (calls_pumpReturned cfg w τ _ _)
  · cases h
    exact of_calls rfl
  · cases h
    exact endCall cfg w _ _
  · cases h
    exact endCall cfg w _ _
  · cases h
    exact endCall cfg w _ _
  · cases h
    exact of_calls rfl
  · cases h
    exact of_calls rfl
  · cases h

end Rpc.BeginsNoWait

/-- A call that waits after such a change waited before it. -/
theorem Rpc.From.waiting {r : Rpc} (h : From cfg r k call)
    (hphase : call.phase = .waiting deadline) :
    r.calls[k]? = some call := by
  cases h with
  | stays hold => exact hold
  | ends => cases hphase
  | begins _ hno => exact absurd hphase (hno deadline)

/-! ## Steps -/

/-- The step in which a call in `ws.send` begins to wait for its future: its socket takes
frames, and its timer runs from there. -/
structure SendReturns (w : World) (e : Event) (k : ℕ) (call : Call) (deadline : ℚ) : Prop where
  event : e = .sent k
  sending : w.rpc.calls[k]? = some { call with phase := .sending }
  live : call.conn.map w.sock = some .live
  timer : deadline = w.now + call.timeout

/-- A step of a call in flight lets it wait, once its send has returned, or ends it. -/
theorem callStep_outcome (hcallNo : e.callNo = some k) (h : w.callStep cfg k e = some w') :
    (∃ call, SendReturns w e k call (w.now + call.timeout) ∧
      w' = { w with rpc := w.rpc.await k (w.now + call.timeout) }) ∨
    ∃ outcome, w' = w.conclude cfg k outcome := by
  unfold World.callStep at h
  split at h
  · cases h
  · rename_i call hcall
    split at h
    · split at h
      · rename_i hphase
        cases hcallNo
        split at h
        · rename_i hlive
          cases h
          have hsending : w.rpc.calls[k]? = some { call with phase := .sending } := by
            rw [hcall, ← hphase]
          exact .inl ⟨call, ⟨rfl, hsending, hlive, rfl⟩, rfl⟩
        · cases h
      · split at h
        · cases h
        · exact .inr ⟨_, (Option.some.inj h).symm⟩
      · split at h
        · exact .inr ⟨_, (Option.some.inj h).symm⟩
        · exact .inr ⟨_, (Option.some.inj h).symm⟩
        · exact .inr ⟨_, (Option.some.inj h).symm⟩
        · cases h
      · split at h
        · exact .inr ⟨_, (Option.some.inj h).symm⟩
        · cases h
      · cases h
      · split at h
        · exact .inr ⟨_, (Option.some.inj h).symm⟩
        · cases h
      · cases h
    · cases h

/-- How a call comes out of a step. -/
def ComesFrom (cfg : Config) (w : World) (e : Event) (k : ℕ) (call : Call) : Prop :=
  Rpc.From cfg w.rpc k call ∨
    ∃ deadline, call.phase = .waiting deadline ∧ SendReturns w e k call deadline

/-- A step of a call in flight makes it wait, if its send returned, or ends it. -/
theorem callStep_calls (hcallNo : e.callNo = some k) (h : w.callStep cfg k e = some w') {i : ℕ}
    (hcall : w'.rpc.calls[i]? = some call) : ComesFrom cfg w e i call := by
  rcases callStep_outcome hcallNo h with ⟨call₀, hreturns, rfl⟩ | ⟨outcome, rfl⟩
  · rcases Rpc.getElem?_modify_cases hcall with ⟨-, hold⟩ | ⟨rfl, c, hc, rfl⟩
    · exact .inl (.stays hold)
    · obtain rfl := Option.some.inj (hc.symm.trans hreturns.sending)
      exact .inr ⟨_, rfl, hreturns.event, hc, hreturns.live, rfl⟩
  · exact .inl (Rpc.BeginsNoWait.conclude cfg w k outcome i call hcall)

/-- A call begins to wait only in the step in which its send returns. -/
theorem calls_of_step (h : step cfg w e = some w') (hcall : w'.rpc.calls[k]? = some call) :
    ComesFrom cfg w e k call := by
  have old (hno : Rpc.BeginsNoWait cfg w.rpc w'.rpc) : ComesFrom cfg w e k call :=
    .inl (hno k call hcall)
  have frame (hcalls : w'.rpc.calls = w.rpc.calls) : ComesFrom cfg w e k call :=
    old (.of_calls hcalls)
  cases e with
  | sent k => exact callStep_calls rfl h hcall
  | sendFailed k => exact callStep_calls rfl h hcall
  | resume k => exact callStep_calls rfl h hcall
  | timeout k => exact callStep_calls rfl h hcall
  | cancel k => exact callStep_calls rfl h hcall
  | tick d =>
    simp only [step] at h
    split at h
    · exact frame (Option.some.inj h ▸ rfl)
    · cases h
  | frame c f =>
    simp only [step] at h
    split at h
    · exact frame (Option.some.inj h ▸ rfl)
    · cases h
  | sockClosing c => exact frame (Option.some.inj h ▸ rfl)
  | sockClosed c clean =>
    simp only [step] at h
    split at h
    · exact frame (Option.some.inj h ▸ rfl)
    · cases h
  | start => exact frame (Option.some.inj h ▸ calls_beginStart w)
  | cancelStart τ =>
    simp only [step] at h
    split at h
    · exact frame (Option.some.inj h ▸ rfl)
    · cases h
  | stop =>
    simp only [step] at h
    split at h
    · exact frame (Option.some.inj h ▸ calls_beginStop w)
    · exact frame (Option.some.inj h ▸ rfl)
  | call op => exact old (Option.some.inj h ▸ .perform cfg w .application op)
  | send message =>
    simp only [step] at h
    split at h
    · exact frame (Option.some.inj h ▸ rfl)
    · exact frame (Option.some.inj h ▸ rfl)
  | addHandler channel handler => exact frame (Option.some.inj h ▸ rfl)
  | removeHandler channel handler =>
    simp only [step] at h
    split at h
    · exact frame (Option.some.inj h ▸ rfl)
    · exact frame (Option.some.inj h ▸ rfl)
  | clearHandlers channel =>
    cases channel with
    | none => exact frame (Option.some.inj h ▸ rfl)
    | some channel => exact frame (Option.some.inj h ▸ rfl)
  | connected τ => exact old (.openStep rfl (step_guarded h))
  | connectFailed τ => exact old (.openStep rfl (step_guarded h))
  | authSent τ => exact old (.openStep rfl (step_guarded h))
  | authSendFailed τ => exact old (.openStep rfl (step_guarded h))
  | authReply τ => exact old (.openStep rfl (step_guarded h))
  | authTimeout τ => exact old (.openStep rfl (step_guarded h))
  | authClosed τ => exact old (.openStep rfl (step_guarded h))
  | run τ => exact old (.runStep (step_guarded h))
  | recv τ => exact old (.recvStep (step_guarded h))
  | socketEnd τ =>
    obtain ⟨a, c, exc, -, rfl⟩ := socketEnd_cases h
    exact frame (calls_pumpReturned cfg w τ a exc)
  | callbackCall τ op => exact old (.callbackCallStep (step_guarded h))
  | callbackEnd τ result => exact old (.callbackEndStep (step_guarded h))
  | wake τ => exact old (.wakeStep (step_guarded h))
  | closeDone τ => exact old (.closeDoneStep (step_guarded h))
  | stopStep τ => exact old (.stopStep h)
  | deliverCancel τ =>
    simp only [step] at h
    split at h
    · exact old (.cancelStep h)
    · cases h

/-- A call that waits after a step waited before it, unless its send returns in the step. -/
theorem waits_of_step (h : step cfg w e = some w') (hcall : w'.rpc.calls[k]? = some call)
    (hphase : call.phase = .waiting deadline) :
    w.rpc.calls[k]? = some call ∨ SendReturns w e k call deadline := by
  rcases calls_of_step h hcall with hfrom | ⟨deadline', hphase', hreturns⟩
  · exact .inl (hfrom.waiting hphase)
  · obtain rfl := Phase.waiting.inj (hphase.symm.trans hphase')
    exact .inr hreturns

/-- Every call has the timeout of its operation. -/
theorem timeout_of_run {ok : World → Event → Prop} {es : List Event}
    (hrun : Transition.Run (step cfg) ok World.init es w) (hcall : w.rpc.calls[k]? = some call) :
    call.timeout = World.timeoutOf cfg call.op := by
  refine hrun.invariant (I := fun w => ∀ k call, w.rpc.calls[k]? = some call →
    call.timeout = World.timeoutOf cfg call.op) (by simp [World.init]) ?_ k call hcall
  rintro t e v htimeout - hstep k call hcall
  rcases calls_of_step hstep hcall with hfrom | ⟨_, _, hreturns⟩
  · cases hfrom with
    | stays hold => exact htimeout k call hold
    | @ends old _ hold => exact htimeout k old hold
    | begins hnew => exact hnew
  · have hsending := htimeout k _ hreturns.sending
    exact hsending

/-! ## Beginnings and ends -/

/-- Where a move begins a call, and which operation of the application or of a task it serves. -/
structure BegunBy (cfg : Config) (w₀ : World) (e : Event) (w : World) (call : Call) : Prop where
  operation : Begins w₀ e call.op
  framed : Framed cfg w call
  fitting : Fitting call
  /-- It is the first call of its step, except in a replay. -/
  first : (∀ σ, call.owner ≠ .replay σ) → w.rpc = w₀.rpc
  /-- If its frame is handed to a socket, this is the first thing that the step does. -/
  sends : (∀ σ, call.owner ≠ .replay σ) → call.conn ≠ none → w = w₀

/-- How a move begins a call: with its frame sent, or refused. -/
inductive BeginsCall (cfg : Config) (w₀ : World) (e : Event) (w w' : World) : Call → Prop
  | launched {call : Call} {c : ℕ} : BegunBy cfg w₀ e w call → call.conn = some c →
      w'.rpc = (w.launched call c).rpc → w'.conns = (w.launched call c).conns →
      BeginsCall cfg w₀ e w w' call
  | refused {call : Call} : BegunBy cfg w₀ e w call → call.conn = none →
      BeginsCall cfg w₀ e w w' { call with phase := .ended (.raised (.py .runtimeError)) }

/-- A call that is no replay is the first thing that its task does in a step. -/
theorem Calls.first {τ k : ℕ} {b b' : Body} (h : Calls w₀ w τ k call b b')
    (howner : ∀ σ, call.owner ≠ .replay σ) : w = w₀ := by
  cases h with
  | callback _ hw => exact hw
  | replay hreplay => exact absurd hreplay (howner _)
  | heartbeat _ _ hw => exact hw

/-- A call that goes on is the same call. -/
theorem Continues.same_call {r r' : Rpc} {call' : Call} (h : Continues w₀ e r r' k call call') :
    Rpc.Same call call' := by
  cases h <;> exact ⟨rfl, rfl, rfl, rfl, rfl⟩

/-- A call was there before a move and goes on, or the move begins it. -/
theorem Move.call_origin (h : Move cfg w₀ e w w') (hcall : w'.rpc.calls[k]? = some call) :
    (∃ call₀, w.rpc.calls[k]? = some call₀ ∧ Continues w₀ e w.rpc w'.rpc k call₀ call) ∨
      (k = w.rpc.calls.length ∧ BeginsCall cfg w₀ e w w' call) := by
  rcases h.call_cases hcall with hold | ⟨rfl, -⟩
  · exact .inl hold
  · right
    refine ⟨rfl, ?_⟩
    cases h with
    | @launch new c hw hframed hbegins hbound howner =>
      obtain rfl : new = call := by simpa [World.launched, Rpc.register] using hcall
      have hfitting : Fitting new := by constructor <;> simp [howner]
      exact .launched ⟨hbegins, hframed, hfitting, fun _ => by rw [hw], fun _ _ => hw⟩ hbound rfl
        rfl
    | @call τ c new b _ hframed hbegins hbound hcalls =>
      obtain rfl : new = call := by simpa [World.launched, Rpc.register] using hcall
      have hfirst := hcalls.first
      exact .launched ⟨hbegins, hframed, hcalls.fitting, fun howner => by rw [hfirst howner],
        fun howner _ => hfirst howner⟩ hbound rfl rfl
    | @refuse new hrpc hframed hbegins hfitting hbound =>
      obtain rfl : { new with phase := .ended (.raised (.py .runtimeError)) } = call := by
        simpa [World.refused, Rpc.finish, Rpc.register] using hcall
      exact .refused ⟨hbegins, hframed, hfitting, fun _ => hrpc, fun _ hne => absurd hbound hne⟩
        hbound
    | endCall _ hk => simp [rpc_endCall, Rpc.calls_finish hk] at hcall
    | resume _ _ hk => simp [rpc_endCall, Rpc.calls_finish hk] at hcall
    | await => simp [Rpc.await] at hcall
    | _ => simp [World.beginReconnect, Rpc.failAll, Rpc.cancelAll] at hcall

/-- A call that has ended after a step had ended before it, ends in it, or was refused in it. -/
theorem Moves.ended (h : Moves cfg w₀ e w₀ w) {outcome : Outcome}
    (hcall : w.rpc.calls[k]? = some call) (hphase : call.phase = .ended outcome) :
    w₀.rpc.calls[k]? = some call ∨
      (∃ call₀, w₀.rpc.calls[k]? = some call₀ ∧ Ends w₀ e k call₀ outcome) ∨
      outcome = .raised (.py .runtimeError) := by
  induction h generalizing call with
  | refl => exact .inl hcall
  | tail _ hlast ih =>
    rcases hlast.call_origin hcall with ⟨call₀, hcall₀, hcontinues⟩ | ⟨-, hbegins⟩
    · cases hcontinues with
      | same => exact ih hcall₀ hphase
      | await => cases hphase
      | ends hends hrpc =>
        obtain rfl := Phase.ended.inj hphase
        exact .inr (.inl ⟨call₀, hrpc ▸ hcall₀, hends⟩)
    · cases hbegins with
      | launched hbegun =>
        rw [hbegun.framed.phase] at hphase
        cases hphase
      | refused => exact .inr (.inr (Phase.ended.inj hphase).symm)

/-! ## The clock -/

/-- No time passes while a call ends. -/
@[simp] theorem now_endCall (cfg : Config) (w : World) (k : ℕ) (outcome : Outcome) :
    (w.endCall cfg k outcome).now = w.now := by
  rw [endCall_eq]

/-- Time does not go back within a step. -/
theorem Move.now_le (h : Move cfg w₀ e w w') : w.now ≤ w'.now := by
  cases h with
  | tick _ hd => exact le_add_of_nonneg_right hd
  | endCall => rw [now_endCall]
  | resume => rw [World.setBody_now, now_endCall]
  | _ => exact le_rfl

/-- The clock never goes back, in no step of any run. -/
theorem Moves.now_le (h : Moves cfg w₀ e w w') : w.now ≤ w'.now := by
  induction h with
  | refl => exact le_rfl
  | tail _ hlast ih => exact ih.trans hlast.now_le

end ProxyClient.Websocket
