import ProxyClient.Websocket.Inbox

/-!
# The end of a connection

When the socket of the connection ends, the supervise task fails every request that waits with
a `ConnectionError`, and the end of `stop()` cancels every request that waits. From then on
such a request can end in one way only.
-/

namespace ProxyClient.Websocket

variable {cfg : Config} {w₀ w w' : World} {e : Event} {σ τ k c a : ℕ} {call : Call}

/-! ## How the pump returns -/

/-- When the pump returns on a running client, every registered call fails. -/
theorem rpc_pumpReturned (cfg : Config) (σ a : ℕ) (exc : Option Exc) (hrun : w.running = true) :
    (w.pumpReturned cfg σ a exc).rpc = w.rpc.failAll (World.asConnectionError exc) := by
  unfold World.pumpReturned
  rw [if_pos hrun]
  simp only
  split
  · rfl
  · rfl
  · split
    · rfl
    · rfl

/-- What `_pump` returns when the socket of a connection ended. -/
theorem socketEnd_cases {σ : ℕ} (h : step cfg w (.socketEnd σ) = some w') :
    ∃ a c exc, w.body σ = .supervise a (.reading c) ∧ w' = w.pumpReturned cfg σ a exc := by
  simp only [step] at h
  split at h
  · cases h
  · unfold World.socketEndStep at h
    split at h
    · rename_i a c hb
      split at h
      · exact ⟨a, c, none, hb, (Option.some.inj h).symm⟩
      · exact ⟨a, c, _, hb, (Option.some.inj h).symm⟩
      · cases h
    · cases h

/-- The pump reads the current connection or returns at once. -/
theorem beginPump_cases (hrun : w.running = true) (hconn : w.conn = some c) :
    w.beginPump cfg σ a = w.setBody σ (.supervise a (.reading c)) ∨
      ∃ exc, w.beginPump cfg σ a = w.pumpReturned cfg σ a exc := by
  unfold World.beginPump World.read
  rw [if_pos hrun]
  simp only [hconn]
  split
  · split
    · exact .inr ⟨_, rfl⟩
    · exact .inl rfl
  · exact .inr ⟨_, rfl⟩

/-! ## Waiting requests -/

/-- A request waits for its reply on a connection. -/
structure Waits (w : World) (k c : ℕ) (call : Call) : Prop where
  begun : w.rpc.calls[k]? = some call
  request : call.op.isRequest = true
  sent : ∃ deadline, call.phase = .waiting deadline
  conn : call.conn = some c
  pending : w.rpc.future k = some .pending

/-- Whether a request waits depends on the correlator alone. -/
theorem Waits.congr (h : Waits w k c call) (hrpc : w'.rpc = w.rpc) : Waits w' k c call :=
  ⟨hrpc ▸ h.begun, h.request, h.sent, h.conn, hrpc ▸ h.pending⟩

/-- A request that waits is registered, so that a lost connection finds its future. -/
theorem Waits.mem_waiting (h : Waits w k c call) (hsound : Sound cfg w) :
    k ∈ w.rpc.pending.waiting := by
  obtain ⟨deadline, hphase⟩ := h.sent
  have hended : call.phase.isEnded = false := by rw [hphase]; rfl
  exact PendingRequests.mem_waiting.mpr
    ⟨call.key, hsound.rpc.registered h.begun h.request hended h.pending⟩

/-- A request waits on, and its future has failed with a `ConnectionError`. -/
def Failed (w : World) (k : ℕ) (call : Call) : Prop :=
  w.rpc.calls[k]? = some call ∧
    ∃ exc, w.rpc.future k = some (.exception exc) ∧ exc.isConnectionError = true

/-- A request that waits fails when the pump returns. -/
theorem Waits.failed (h : Waits w k c call) (hsound : Sound cfg w) (hrun : w.running = true)
    (exc : Option Exc) : Failed (w.pumpReturned cfg σ a exc) k call := by
  have hrpc := rpc_pumpReturned cfg σ a exc hrun
  refine ⟨hrpc ▸ h.begun, World.asConnectionError exc, ?_,
    asConnectionError_isConnectionError exc⟩
  rw [hrpc]
  exact Future.getElem?_completeAll_of_mem (h.mem_waiting hsound) h.pending rfl

/-- A request that waits is cancelled with all others. -/
theorem Waits.cancelled (h : Waits w k c call) (hsound : Sound cfg w) :
    w.rpc.cancelAll.future k = some .cancelled :=
  Future.getElem?_completeAll_of_mem (h.mem_waiting hsound) h.pending rfl

/-! ## A lost connection -/

/-- The connection has ended, every frame that arrived on it was taken, and the client runs. -/
structure Lost (w : World) (c : ℕ) : Prop where
  closed : ∃ clean, w.sock c = .closed clean
  drained : w.inbox c = []
  running : w.running = true

/-- A supervise task that is not cancelled reads a connection. -/
structure Reads (w : World) (σ c : ℕ) : Prop where
  body : ∃ a, w.body σ = .supervise a (.reading c)
  free : w.isCancelled σ = false

/-- A supervise task that is not cancelled is about to read the current connection: it was just
created, or it is in the handshake of a reconnect. -/
structure Approaches (w : World) (σ c : ℕ) : Prop where
  body : ∃ a, w.body σ = .supervise a .ready ∨
    ∃ stage, stage ≠ .connecting ∧ w.body σ = .supervise a (.opening c stage)
  free : w.isCancelled σ = false
  conn : w.conn = some c

/-- `recv` of a lost connection raises at once. -/
theorem Reads.enabled (h : Reads w σ c) (hlost : Lost w c) :
    ∃ w', step cfg w (.socketEnd σ) = some w' := by
  obtain ⟨a, hb⟩ := h.body
  obtain ⟨clean, hclosed⟩ := hlost.closed
  simp only [step, h.free, World.socketEndStep, hb, hclosed]
  cases clean <;> exact ⟨_, rfl⟩

/-- The task can do nothing else: with the inbox empty and the socket closed, `recv` raises. -/
theorem Reads.step_eq (h : Reads w σ c) (hlost : Lost w c) (htask : e.task = some σ)
    (hstep : step cfg w e = some w') : e = .socketEnd σ := by
  obtain ⟨a, hb⟩ := h.body
  have hpumps : (w.body σ).pumps = some c := by
    rw [hb]
    rfl
  rcases task_of_pumps hstep hpumps htask with hhandles | he | rfl | ⟨op, rfl⟩
  · cases e with
    | recv τ =>
      obtain rfl := Option.some.inj hhandles
      obtain ⟨a', c', f, hb', htakes⟩ := recv_takes hstep
      obtain ⟨-, rfl⟩ : a = a' ∧ c = c' := by simpa [hb] using hb'
      have hdrained := htakes c
      rw [hlost.drained] at hdrained
      simp at hdrained
    | callbackEnd τ result =>
      obtain rfl := Option.some.inj hhandles
      simp [step, World.callbackEndStep, hb] at hstep
    | _ => cases hhandles
  · exact he
  · simp [step, h.free] at hstep
  · simp [step, World.callbackCallStep, hb] at hstep

/-- When the task notices that the connection is lost, the requests that wait fail. -/
theorem Reads.failed (h : Reads w σ c) (hlost : Lost w c) (hwaits : Waits w k c call)
    (hsound : Sound cfg w) (htask : e.task = some σ) (hstep : step cfg w e = some w') :
    Failed w' k call := by
  obtain rfl := h.step_eq hlost htask hstep
  obtain ⟨a, c', exc, -, rfl⟩ := socketEnd_cases hstep
  exact hwaits.failed hsound hlost.running exc

/-- The task goes on at once: it is ready, or its handshake fails with the connection. -/
theorem Approaches.enabled (h : Approaches w σ c) (hlost : Lost w c) :
    ∃ e w', e.task = some σ ∧ step cfg w e = some w' := by
  obtain ⟨clean, hclosed⟩ := hlost.closed
  obtain ⟨a, hb | ⟨stage, hstage, hb⟩⟩ := h.body
  · refine ⟨.run σ, ?_⟩
    simp [step, h.free, World.runStep, hb, Event.task]
  · cases stage with
    | connecting => exact absurd rfl hstage
    | sendingAuth =>
      refine ⟨.authSendFailed σ, ?_⟩
      simp [step, h.free, World.openStep, World.opening?, hb, hclosed, Event.task]
    | awaitingReply deadline =>
      refine ⟨.authClosed σ, ?_⟩
      simp [step, h.free, World.openStep, World.opening?, hb, hclosed, Event.task]

/-- A supervise task that was just created can only enter the pump. -/
theorem step_eq_of_ready (hb : w.body σ = .supervise a .ready) (hfree : w.isCancelled σ = false)
    (htask : e.task = some σ) (hstep : step cfg w e = some w') : w' = w.beginPump cfg σ a := by
  cases e <;> cases htask
  case run =>
    simp only [step, hfree, World.runStep, hb, Bool.false_eq_true, if_false] at hstep
    exact (Option.some.inj hstep).symm
  all_goals
    simp [step, hfree, World.openStep, World.opening?, World.recvStep, World.socketEndStep,
      World.callbackCallStep, World.callbackEndStep, World.wakeStep, World.closeDoneStep,
      World.stopStep, hb] at hstep

/-- When the connection is lost, the handshake of a reconnect can only raise. -/
theorem step_eq_of_opening {stage : OpenStage} (hb : w.body σ = .supervise a (.opening c stage))
    (hstage : stage ≠ .connecting) (hfree : w.isCancelled σ = false) (hlost : Lost w c)
    (htask : e.task = some σ) (hstep : step cfg w e = some w') : w' = w.beginPump cfg σ a := by
  obtain ⟨clean, hclosed⟩ := hlost.closed
  have hfailed : w.openFailed cfg σ = w.beginPump cfg σ a := by simp [World.openFailed, hb]
  rw [← hfailed]
  by_cases hreply : e = .authReply σ
  · subst hreply
    obtain ⟨c', deadline, f, hopening, htakes⟩ := authReply_takes hstep
    obtain ⟨rfl, -⟩ : c = c' ∧ stage = .awaitingReply deadline := by
      simpa [World.opening?, hb] using hopening
    have hdrained := htakes c
    rw [hlost.drained] at hdrained
    simp at hdrained
  · cases e <;> cases htask
    all_goals
      cases stage <;>
        simp [step, hfree, World.openStep, World.opening?, World.recvStep, World.socketEndStep,
          World.callbackCallStep, World.callbackEndStep, World.wakeStep, World.closeDoneStep,
          World.stopStep, World.runStep, hb, hclosed] at hstep hstage hreply
    all_goals grind

/-- The task can only enter the pump, whether it is ready or its handshake fails. -/
theorem Approaches.step_eq (h : Approaches w σ c) (hlost : Lost w c) (htask : e.task = some σ)
    (hstep : step cfg w e = some w') : ∃ a, w' = w.beginPump cfg σ a := by
  obtain ⟨a, hb | ⟨stage, hstage, hb⟩⟩ := h.body
  · exact ⟨a, step_eq_of_ready hb h.free htask hstep⟩
  · exact ⟨a, step_eq_of_opening hb hstage h.free hlost htask hstep⟩

/-- The requests that wait fail in this step, or the task reads the lost connection after it. -/
theorem Approaches.failed (h : Approaches w σ c) (hlost : Lost w c) (hwaits : Waits w k c call)
    (hsound : Sound cfg w) (htask : e.task = some σ) (hstep : step cfg w e = some w') :
    Failed w' k call ∨ (Reads w' σ c ∧ Lost w' c ∧ Waits w' k c call) := by
  obtain ⟨a, rfl⟩ := h.step_eq hlost htask hstep
  rcases beginPump_cases hlost.running h.conn with heq | ⟨exc, heq⟩
  · rw [heq]
    have hlt : σ < w.tasks.length := by
      apply World.lt_of_body_ne
      obtain ⟨a, hb | ⟨stage, -, hb⟩⟩ := h.body <;> simp [hb]
    refine .inr ⟨⟨⟨a, World.body_setBody_self _ hlt⟩, ?_⟩, ⟨hlost.closed, hlost.drained,
      hlost.running⟩, hwaits.congr rfl⟩
    simp [World.isCancelled, hlt]
  · rw [heq]
    exact .inl (hwaits.failed hsound hlost.running exc)

/-! ## The end of `stop()` -/

/-- `stop()` closes the connection, or it ends and cancels every request. -/
theorem stopClose_cases (hlt : τ < w.tasks.length) :
    (w.stopClose τ).rpc = w.rpc.cancelAll ∨ (w.stopClose τ).body τ ≠ .finished := by
  unfold World.stopClose
  split
  · exact .inl rfl
  · split
    · refine .inr ?_
      rw [World.body_setBody_self _ (by simpa using hlt)]
      exact nofun
    · exact .inl rfl

/-- `stop()` has either cancelled what was pending, or is suspended in front of the heartbeat
task. -/
theorem stopHeartbeat_cases {heartbeat : Option ℕ} (hlt : τ < w.tasks.length) :
    (w.stopHeartbeat τ heartbeat).rpc = w.rpc.cancelAll ∨
      (w.stopHeartbeat τ heartbeat).body τ ≠ .finished := by
  unfold World.stopHeartbeat
  split
  · exact stopClose_cases hlt
  · refine .inr ?_
    rw [World.body_setBody_self _ (by simpa using hlt)]
    exact nofun

/-- A `stop()` ends in a step, at once or after it was suspended. -/
inductive StopEnds (w : World) (e : Event) (w' : World) : Prop
  | at_once : e = .stop → w.running = true → w'.body w.tasks.length = .finished → StopEnds w e w'
  | later {τ : ℕ} {pc : StopAt} : e.task = some τ → w.body τ = .stop pc →
      w'.body τ = .finished → StopEnds w e w'

/-- So a `stop()` that ends in a step cancels every pending request in that step. -/
theorem rpc_of_stop_finished {pc : StopAt} (hb : w.body τ = .stop pc) (htask : e.task = some τ)
    (hstep : step cfg w e = some w') (hfinished : w'.body τ = .finished) :
    w'.rpc = w.rpc.cancelAll := by
  have hlt : τ < w.tasks.length := World.lt_of_body_ne (by simp [hb])
  cases e <;> cases htask
  case closeDone =>
    simp only [step, World.closeDoneStep, hb] at hstep
    split at hstep
    · cases hstep
    · cases pc <;> simp only [Option.some.injEq, reduceCtorEq] at hstep
      rw [← hstep]
      rfl
  case stopStep =>
    simp only [step, World.stopStep, hb] at hstep
    cases pc with
    | closing c => cases hstep
    | awaitingSupervise σ heartbeat =>
      simp only at hstep
      split at hstep
      · cases hstep
      · obtain rfl := Option.some.inj hstep
        exact (stopHeartbeat_cases hlt).resolve_right (fun hne => hne hfinished)
    | awaitingHeartbeat η =>
      simp only at hstep
      split at hstep
      · cases hstep
      · obtain rfl := Option.some.inj hstep
        exact (stopClose_cases hlt).resolve_right (fun hne => hne hfinished)
  all_goals
    simp [step, World.openStep, World.opening?, World.recvStep, World.socketEndStep,
      World.callbackCallStep, World.callbackEndStep, World.wakeStep, World.runStep,
      World.cancelStep, hb] at hstep

/-- The end of a `stop()` cancels every request. -/
theorem StopEnds.rpc (h : StopEnds w e w') (hstep : step cfg w e = some w') :
    w'.rpc = w.rpc.cancelAll := by
  cases h with
  | at_once he hrun hfinished =>
    subst he
    simp only [step, hrun, if_true] at hstep
    obtain rfl := Option.some.inj hstep
    unfold World.beginStop at hfinished ⊢
    simp only at hfinished ⊢
    split
    · rename_i hnone
      simp only [hnone] at hfinished
      exact (stopHeartbeat_cases (by simp)).resolve_right (fun hne => hne hfinished)
    · rename_i σ hsome
      simp only [hsome] at hfinished
      rw [World.body_setBody_self _ (by simp)] at hfinished
      cases hfinished
  | later htask hb hfinished => exact rpc_of_stop_finished hb htask hstep hfinished

/-! ## From then on -/

/-- What a future raises in the call that waits for it. -/
def Future.raises : Future Inbound Exc → Option Exc
  | .exception exc => some exc
  | .cancelled => some .cancelledError
  | _ => none

/-- A step that does not cancel the caller of a call. -/
def SparesCaller (k : ℕ) (owner : Owner) (_ : World) (e : Event) : Prop :=
  e ≠ .cancel k ∧ ∀ τ, owner.task = some τ → e ≠ .deliverCancel τ

/-- A call that waits for a future that raises, or that has raised what it raises. -/
def RaisesOnly (w : World) (k : ℕ) (owner : Owner) (fut : Future Inbound Exc) : Prop :=
  w.rpc.future k = some fut ∧ ∃ call, w.rpc.calls[k]? = some call ∧ call.owner = owner ∧
    ∃ exc, Future.raises fut = some exc ∧
      ((∃ deadline, call.phase = .waiting deadline) ∨ call.phase = .ended (.raised exc))

/-- Nothing but the cancellation of its caller makes the call end otherwise. -/
theorem RaisesOnly.move {owner : Owner} {fut : Future Inbound Exc}
    (h₀ : RaisesOnly w₀ k owner fut) (hspares : SparesCaller k owner w₀ e)
    (h : RaisesOnly w k owner fut) (hmove : Move cfg w₀ e w w') :
    RaisesOnly w' k owner fut := by
  obtain ⟨hfut, call, hcall, howner, exc, hraises, hphase⟩ := h
  have hdone : fut.done = true := by cases fut <;> simp [Future.raises] at hraises <;> rfl
  refine ⟨hmove.rpc.future_done hfut hdone, ?_⟩
  obtain ⟨call', hcall', hsame⟩ := hmove.extends k call hcall
  refine ⟨call', hcall', hsame.owner.trans howner, exc, hraises, ?_⟩
  have hsent : call.phase ≠ .sending := by
    rcases hphase with ⟨deadline, hphase⟩ | hphase <;> rw [hphase] <;> exact nofun
  rcases hmove.call_cases hcall' with ⟨call₀, hcall₀, hcont⟩ | ⟨hk, -⟩
  · obtain rfl := Option.some.inj (hcall₀.symm.trans hcall)
    cases hcont with
    | same => exact hphase
    | await hsending => exact absurd hsending hsent
    | ends hends =>
      have hfut₀ := h₀.1
      cases hends with
      | sendFailed _ hsending => exact absurd hsending hsent
      | reply _ _ hresult =>
        rw [hresult] at hfut₀
        obtain rfl := Option.some.inj hfut₀
        cases hraises
      | failed _ _ hfailed =>
        rw [hfailed] at hfut₀
        obtain rfl := Option.some.inj hfut₀
        obtain rfl := Option.some.inj hraises
        exact .inr rfl
      | cancelled _ _ hcancelled =>
        rw [hcancelled] at hfut₀
        obtain rfl := Option.some.inj hfut₀
        obtain rfl := Option.some.inj hraises
        exact .inr rfl
      | timeout _ _ _ hpending =>
        rw [hpending] at hfut₀
        obtain rfl := Option.some.inj hfut₀
        cases hraises
      | callerCancelled he => exact absurd he hspares.1
      | taskCancelled he htask => exact absurd he (hspares.2 _ (howner ▸ htask))
  · have hlt := (List.getElem?_eq_some_iff.mp hcall).1
    omega

/-- A request that is bound to raise does so in the rest of the run, unless its caller is
cancelled. -/
theorem RaisesOnly.run {owner : Owner} {fut : Future Inbound Exc} {es : List Event}
    (h : RaisesOnly w k owner fut) (hsound : Sound cfg w)
    (hrun : Transition.Run (step cfg) (SparesCaller k owner) w es w') :
    RaisesOnly w' k owner fut := by
  apply hsound.invariant_of_moves hrun h
  intro w₀ e v v' hspares _ h₀ _ hv _ hmove
  exact h₀.move hspares hv hmove

/-- A call whose future raises can raise at once. -/
theorem raises_at_once {deadline : ℚ} {fut : Future Inbound Exc} {exc : Exc}
    (hcall : w.rpc.calls[k]? = some call) (hphase : call.phase = .waiting deadline)
    (hfut : w.rpc.future k = some fut) (hraises : Future.raises fut = some exc)
    (hfree : w.ownerFree call.owner = true) :
    ∃ w', step cfg w (.resume k) = some w' ∧
      w'.rpc.calls[k]? = some { call with phase := .ended (.raised exc) } := by
  have hstep : step cfg w (.resume k) = some (w.conclude cfg k (.raised exc)) := by
    simp only [step, World.callStep, hcall, hfree, if_true, hphase, hfut]
    cases fut <;> cases hraises <;> rfl
  refine ⟨_, hstep, ?_⟩
  simp [World.conclude, hcall, rpc_endCall, Rpc.finish]

/-! ## Requests in flight -/

/-- A call whose frame was sent, and which has not raised `ConnectionClosed`. -/
def Typed (w : World) (k : ℕ) : Prop :=
  ∃ call, w.rpc.calls[k]? = some call ∧ call.phase ≠ .sending ∧
    call.phase ≠ .ended (.raised (.py .connectionClosed))

/-- Once its send has returned, no move makes a call raise the `ConnectionClosed` of
`websockets`. -/
theorem Typed.move (h : Typed w k) (hsound₀ : Sound cfg w₀) (hmove : Move cfg w₀ e w w') :
    Typed w' k := by
  obtain ⟨call, hcall, hsent, htyped⟩ := h
  obtain ⟨call', hcall', -⟩ := hmove.extends k call hcall
  refine ⟨call', hcall', ?_⟩
  rcases hmove.call_cases hcall' with ⟨call₀, hcall₀, hcont⟩ | ⟨hk, -⟩
  · obtain rfl := Option.some.inj (hcall₀.symm.trans hcall)
    cases hcont with
    | same => exact ⟨hsent, htyped⟩
    | await hsending => exact absurd hsending hsent
    | ends hends =>
      refine ⟨nofun, ?_⟩
      cases hends with
      | sendFailed _ hsending => exact absurd hsending hsent
      | failed _ _ hfailed =>
        have hconnection := hsound₀.rpc.failed hfailed
        rintro ⟨⟩
        cases hconnection
      | _ => exact nofun
  · have hlt := (List.getElem?_eq_some_iff.mp hcall).1
    omega

/-- A request whose frame was sent raises no `ConnectionClosed`. -/
theorem Typed.run {es : List Event} (h : Typed w k) (hsound : Sound cfg w)
    (hrun : Transition.Run (step cfg) Transition.always w es w') : Typed w' k := by
  apply hsound.invariant_of_moves hrun h
  intro w₀ e v v' _ hsound₀ _ _ hv _ hmove
  exact hv.move hsound₀ hmove

/-- How a request that waits on a connection ends when the connection does. -/
structure FailsFast (cfg : Config) (w : World) (k c : ℕ) (call : Call) : Prop where
  /-- The task that reads the lost connection goes on at once, and then the request fails. -/
  read : ∀ σ, Lost w c → Reads w σ c →
    (∃ e w', e.task = some σ ∧ step cfg w e = some w') ∧
      ∀ e w', e.task = some σ → step cfg w e = some w' → Failed w' k call
  /-- A task that is about to read it goes on at once, and then the request fails or the task
  reads the lost connection. -/
  approached : ∀ σ, Lost w c → Approaches w σ c →
    (∃ e w', e.task = some σ ∧ step cfg w e = some w') ∧
      ∀ e w', e.task = some σ → step cfg w e = some w' →
        Failed w' k call ∨ (Reads w' σ c ∧ Lost w' c ∧ Waits w' k c call)
  /-- The end of `stop()` cancels the request. -/
  stopped : ∀ e w', step cfg w e = some w' → StopEnds w e w' →
    w'.rpc.calls[k]? = some call ∧ w'.rpc.future k = some .cancelled
  /-- Once it failed or was cancelled it can raise at once, and unless its caller is cancelled
  it raises nothing else. -/
  only : ∀ es w' fut exc, Transition.Run (step cfg) Transition.always w es w' →
    w'.rpc.calls[k]? = some call → w'.rpc.future k = some fut → Future.raises fut = some exc →
    (w'.ownerFree call.owner = true → ∃ w'', step cfg w' (.resume k) = some w'' ∧
      w''.rpc.calls[k]? = some { call with phase := .ended (.raised exc) }) ∧
    ∀ es' w'', Transition.Run (step cfg) (SparesCaller k call.owner) w' es' w'' →
      RaisesOnly w'' k call.owner fut
  /-- It never raises the `ConnectionClosed` of `websockets`. -/
  typed : ∀ es w' call', Transition.Run (step cfg) Transition.always w es w' →
    w'.rpc.calls[k]? = some call' → call'.phase ≠ .ended (.raised (.py .connectionClosed))

/-- In every run, a request that waits on a connection that is lost fails with a
`ConnectionError` as soon as the supervise task reads the connection, a request that waits at
the end of `stop()` is cancelled, and from then on neither ends in any other way. -/
theorem requests_fail_fast {es : List Event}
    (hrun : Transition.Run (step cfg) Transition.always World.init es w)
    (hwaits : Waits w k c call) : FailsFast cfg w k c call := by
  have hsound : Sound cfg w := sound_of_run hrun
  obtain ⟨deadline, hphase⟩ := hwaits.sent
  constructor
  case read =>
    intro σ hlost hreads
    obtain ⟨w', hw'⟩ : ∃ w', step cfg w (.socketEnd σ) = some w' := hreads.enabled hlost
    exact ⟨⟨_, w', rfl, hw'⟩, fun e w' => hreads.failed hlost hwaits hsound⟩
  case approached =>
    intro σ hlost happroaches
    exact ⟨happroaches.enabled hlost, fun e w' => happroaches.failed hlost hwaits hsound⟩
  case stopped =>
    intro e w' hstep hends
    have hrpc := hends.rpc hstep
    exact ⟨hrpc ▸ hwaits.begun, hrpc ▸ hwaits.cancelled hsound⟩
  case only =>
    intro es' w' fut exc hrun' hcall hfut hraises
    have hsound' : Sound cfg w' := sound_of_run (hrun.append hrun')
    refine ⟨raises_at_once hcall hphase hfut hraises, fun es'' w'' hrun'' => ?_⟩
    exact RaisesOnly.run ⟨hfut, call, hcall, rfl, exc, hraises, .inl ⟨deadline, hphase⟩⟩
      hsound' hrun''
  case typed =>
    intro es' w' call' hrun' hcall'
    have htyped : Typed w k := ⟨call, hwaits.begun, by rw [hphase]; exact nofun,
      by rw [hphase]; exact nofun⟩
    obtain ⟨call₁, hcall₁, -, hne⟩ := htyped.run hsound hrun'
    exact Option.some.inj (hcall₁.symm.trans hcall') ▸ hne

/-- A subscription waits for its ack while its connection is open. -/
def waitingEvents : List Event :=
  startEvents ++ [.call (.subscribe "ticker" none true), .sent 0]

/-- The connection drops under a subscription that waits, and the pump fails its future. -/
theorem requests_fail_fast_dropped :
    ∃ w w' call, Transition.Run (step (.sample .kraken none)) Transition.always World.init
        (waitingEvents ++ [.sockClosed 0 false]) w ∧
      step (.sample .kraken none) w (.socketEnd 1) = some w' ∧ Failed w' 0 call := by
  obtain ⟨w, hrun, call, hcall, hrequest, hphase, hconn, hpending, hclosed, hdrained, hrunning,
      hbody, hfree⟩ :
      ∃ w, Transition.Run (step (.sample .kraken none)) Transition.always World.init
        (waitingEvents ++ [.sockClosed 0 false]) w ∧ ∃ call ∈ w.rpc.calls[0]?,
          call.op.isRequest = true ∧ call.phase = .waiting 10 ∧ call.conn = some 0 ∧
          w.rpc.future 0 = some .pending ∧ w.sock 0 = .closed false ∧ w.inbox 0 = [] ∧
          w.running = true ∧ w.body 1 = .supervise 0 (.reading 0) ∧ w.isCancelled 1 = false :=
    Transition.Run.exists_of_exec (by decide +kernel)
  have hwaits : Waits w 0 0 call := ⟨hcall, hrequest, ⟨10, hphase⟩, hconn, hpending⟩
  have hlost : Lost w 0 := ⟨⟨false, hclosed⟩, hdrained, hrunning⟩
  have hreads : Reads w 1 0 := ⟨⟨0, hbody⟩, hfree⟩
  obtain ⟨w', hstep⟩ : ∃ w', step (.sample .kraken none) w (.socketEnd 1) = some w' :=
    hreads.enabled hlost
  exact ⟨w, w', call, hrun, hstep,
    ((requests_fail_fast hrun hwaits).read 1 hlost hreads).2 _ w' rfl hstep⟩

/-- The application stops the client while a subscription waits for its ack. -/
def stoppedEvents : List Event :=
  waitingEvents ++ [.stop, .deliverCancel 1, .stopStep 2, .closeDone 2, .resume 0]

/-- The subscription ends with `CancelledError` instead of a `ConnectionError`. -/
theorem stop_cancels_request :
    ∃ w, Transition.Run (step (.sample .kraken none)) Transition.always World.init stoppedEvents w ∧
      ∃ call ∈ w.rpc.calls[0]?, call.owner = .application ∧
        call.phase = .ended (.raised .cancelledError) :=
  Transition.Run.exists_of_exec (by decide +kernel)

end ProxyClient.Websocket
