import ProxyClient.Websocket.Openings

/-!
# Cancellations and sockets that a step does not begin

A task is told to cancel by a `stop()` only, and a connection gets its socket from `open()` only.
So neither happens in the functions of the client that all other steps consist of.
-/

namespace ProxyClient.Websocket

open Transition

variable {cfg : Config} {w v v' w' : World} {e : Event} {τ σ a c k : ℕ} {b : Body} {f : Inbound}

/-- No task is told to cancel, and no connection without a socket gets one. -/
structure Calm (w w' : World) : Prop where
  cancels : ∀ τ, w'.isCancelled τ = true → w.isCancelled τ = true
  opens : ∀ c, w.sock c = .absent → w'.sock c = .absent

namespace Calm

/-- Nothing happens between a state and itself. -/
theorem refl (w : World) : Calm w w := ⟨fun _ h => h, fun _ h => h⟩

/-- Only the tasks and the connections matter. -/
theorem congr (h : Calm w v) (htasks : v'.tasks = v.tasks) (hconns : v'.conns = v.conns) :
    Calm w v' where
  cancels τ hτ := h.cancels τ (by simpa [World.isCancelled, htasks] using hτ)
  opens c hc := by
    have hsock := h.opens c hc
    simpa [World.sock, hconns] using hsock

/-! ## Updates -/

/-- A task that goes on keeps the requests to cancel it as they are, or leaves them behind. -/
theorem setBody (h : Calm w v) : Calm w (v.setBody τ b) where
  cancels τ' hτ' := by
    apply h.cancels
    by_cases heq : τ = τ'
    · subst heq
      cases hτ : v.tasks[τ]? <;> simp [World.isCancelled, hτ] at hτ'
    · simpa [World.isCancelled, heq] using hτ'
  opens c hc := h.opens c hc

/-- A new task has not been told to cancel. -/
theorem spawn (h : Calm w v) : Calm w (v.spawn b) where
  cancels τ hτ := by
    apply h.cancels
    rcases Nat.lt_trichotomy τ v.tasks.length with hlt | rfl | hgt
    · simpa [World.isCancelled, List.getElem?_append_left hlt] using hτ
    · simp [World.isCancelled] at hτ
    · rw [World.isCancelled, List.getElem?_eq_none (by simp; omega)] at hτ
      cases hτ
  opens c hc := h.opens c hc

/-- An update of a connection that gives it no socket. -/
theorem modifyConn (h : Calm w v) {g : Connection → Connection}
    (hg : ∀ conn : Connection, conn.sock = .absent → (g conn).sock = .absent) :
    Calm w (v.modifyConn c g) where
  cancels τ hτ := h.cancels τ hτ
  opens c' hc' := by
    have hsock := h.opens c' hc'
    by_cases heq : c' = c
    · subst heq
      cases hconn : v.conns[c']? with
      | none => simp [World.sock, hconn]
      | some conn =>
        have hconn' : conn.sock = .absent := by simpa [World.sock, hconn] using hsock
        simp [World.sock, hconn, hg conn hconn']
    · rw [World.sock_modifyConn_of_ne g heq]
      exact hsock

/-- An update that leaves the socket alone, whatever else of the connection it changes. -/
theorem modifyConn_of_sock (h : Calm w v) {g : Connection → Connection}
    (hg : ∀ conn : Connection, (g conn).sock = conn.sock) : Calm w (v.modifyConn c g) :=
  h.modifyConn (fun conn hconn => (hg conn).trans hconn)

/-- A connection is added, and it has no socket yet. -/
theorem concat (h : Calm w v) (htasks : v'.tasks = v.tasks)
    (hconns : v'.conns = v.conns ++ [({} : Connection)]) : Calm w v' where
  cancels τ hτ := h.cancels τ (by simpa [World.isCancelled, htasks] using hτ)
  opens c hc := by
    have hsock := h.opens c hc
    rw [World.sock, hconns]
    rcases Nat.lt_trichotomy c v.conns.length with hlt | rfl | hgt
    · rw [List.getElem?_append_left hlt]
      exact hsock
    · simp
    · rw [List.getElem?_eq_none (by simp; omega)]
      rfl

/-! ## The supervise task -/

/-- When `_pump` returns, the futures fail, and the supervise task sleeps or ends. -/
theorem pumpReturned (h : Calm w v) (lastError : Option Exc) :
    Calm w (v.pumpReturned cfg σ a lastError) := by
  unfold World.pumpReturned
  split
  · have hfail : Calm w { v with rpc := v.rpc.failAll (World.asConnectionError lastError) } :=
      h.congr rfl rfl
    simp only
    split
    · apply setBody
      exact h.congr rfl rfl
    · exact hfail.setBody
    · split
      · exact hfail.setBody
      · apply setBody
        exact h.concat rfl rfl
  · exact h.setBody

/-- The pump goes back to `recv`. -/
theorem read (h : Calm w v) : Calm w (v.read cfg σ a c) := by
  unfold World.read
  split
  · exact h.pumpReturned _
  · exact h.setBody

/-- The pump looks at `_conn`, and begins to read or returns at once. -/
theorem beginPump (h : Calm w v) : Calm w (v.beginPump cfg σ a) := by
  unfold World.beginPump
  split
  · split
    · exact h.pumpReturned _
    · split
      · exact h.read
      · exact h.pumpReturned _
  · exact h.setBody

/-- A request only writes on a socket that is open. -/
theorem perform (h : Calm w v) (cfg : Config) (owner : Owner) (op : Operation) :
    Calm w (v.perform cfg owner op).1 := by
  rcases perform_cases cfg v owner op with ⟨err, -, hperform⟩ | ⟨call, -, -, -, -, hperform⟩ |
    ⟨call, c, -, -, -, -, hperform⟩
  · rw [hperform]
    exact h.congr rfl rfl
  · rw [hperform]
    exact h.congr rfl rfl
  · rw [hperform]
    apply modifyConn_of_sock
    · exact h.congr rfl rfl
    · exact fun conn => Connection.sock_write conn _

/-- The replay sends its next entry or hands over to the pump. -/
theorem replayNext (h : Calm w v) (entries : List Entry) :
    Calm w (v.replayNext cfg σ a entries) := by
  unfold World.replayNext
  split
  · exact h.beginPump
  · rename_i channel params rest
    have hperform := h.perform cfg (.replay σ) (.subscribe channel (some params) false)
    split
    · rename_i u k hcall
      rw [hcall] at hperform
      exact hperform.setBody
    · rename_i u hcall
      rw [hcall] at hperform
      exact hperform.setBody

/-- The handlers of a frame are called one by one. -/
theorem runHandlers (h : Calm w v) (handlers : List ℕ) (wildcard : Bool) :
    Calm w (v.runHandlers cfg σ a c f handlers wildcard) := by
  unfold World.runHandlers
  split
  · exact h.setBody
  · split
    · split
      · exact h.setBody
      · exact h.read
    · exact h.read

/-- A frame that is no reply goes to its handlers. -/
theorem deliver (h : Calm w v) : Calm w (v.deliver cfg σ a c f) := by
  unfold World.deliver
  simp only
  split
  · exact h.read
  · split
    · exact h.pumpReturned _
    · exact h.runHandlers _ _

/-- The dispatch resolves a reply, sends a pong or delivers the frame. -/
theorem dispatch (h : Calm w v) : Calm w (v.dispatch cfg σ a c f) := by
  unfold World.dispatch
  split
  · have hoffered : Calm w (v.modifyConn c (fun conn =>
        { conn with resolved := conn.resolved ++ [f] })) := h.modifyConn_of_sock (fun _ => rfl)
    simp only
    split
    · exact hoffered.pumpReturned _
    · split
      · apply read
        exact hoffered.congr rfl rfl
      · apply deliver
        exact hoffered.congr rfl rfl
  · exact h.pumpReturned _

/-! ## The heartbeat task -/

/-- The heartbeat sleeps again or ends. -/
theorem heartbeatLoop (h : Calm w v) : Calm w (v.heartbeatLoop cfg τ) := by
  unfold World.heartbeatLoop
  split <;> exact h.setBody

/-- The ping of the heartbeat is a request like the others. -/
theorem heartbeatPing (h : Calm w v) : Calm w (v.heartbeatPing cfg τ) := by
  unfold World.heartbeatPing
  split
  · have hperform := h.perform cfg (.heartbeat τ) .ping
    simp only
    split
    · rename_i u k hcall
      rw [hcall] at hperform
      exact hperform.setBody
    · rename_i u hcall
      rw [hcall] at hperform
      exact hperform.setBody
  · exact h.setBody

/-- A socket that is absent cannot begin to close. -/
theorem beginClose (h : Calm w v) : Calm w (v.modifyConn c Connection.beginClose) := by
  apply h.modifyConn
  intro conn hconn
  simp [Connection.beginClose, hconn]

/-- Nor can it end its close. -/
theorem endClose (h : Calm w v) : Calm w (v.modifyConn c Connection.endClose) := by
  apply h.modifyConn
  intro conn hconn
  simp [Connection.endClose, Connection.detach, hconn]

/-- After its ping the heartbeat goes on, or closes the connection that did not answer. -/
theorem heartbeatPinged (h : Calm w v) (conn : Option ℕ) (outcome : Outcome) :
    Calm w (v.heartbeatPinged cfg τ conn outcome) := by
  unfold World.heartbeatPinged
  split
  · exact h.heartbeatLoop
  · split
    · split
      · exact h.beginClose.setBody
      · exact h.heartbeatLoop
    · exact h.heartbeatLoop
  · exact h.setBody
  · exact h.setBody

/-! ## Calls and `open()` -/

/-- The end of a call wakes the task that awaits it. -/
theorem conclude (h : Calm w v) (outcome : Outcome) : Calm w (v.conclude cfg k outcome) := by
  unfold World.conclude
  split
  · exact h
  · have hend : Calm w (v.endCall cfg k outcome) :=
      h.congr (tasks_endCall cfg v k outcome) (conns_endCall cfg v k outcome)
    unfold World.resumeOwner
    split
    · exact hend
    · split
      · split
        · exact hend.setBody
        · exact hend
      · exact hend
    · split
      · split
        · split <;> exact hend.setBody
        · exact hend
      · exact hend
    · split
      · split
        · exact hend.heartbeatPinged _ _
        · exact hend
      · exact hend

/-- So no step of a call in flight cancels a task or opens a socket. -/
theorem callStep (h : w.callStep cfg k e = some w') (hcallNo : e.callNo = some k) : Calm w w' := by
  obtain ⟨call, -, -, ⟨-, deadline, rfl⟩ | ⟨outcome, -, rfl⟩⟩ := callStep_cases hcallNo h
  · exact (refl w).congr rfl rfl
  · exact (refl w).conclude outcome

/-- A `start()` that returns creates two tasks. -/
theorem started (h : Calm w v) : Calm w (v.started cfg τ) := by
  have hsupervise (u : World) (hu : Calm w u) (n : Option ℕ) :
      Calm w (World.spawn { u with superviseTask := n } (.supervise 0 .ready)) := by
    apply spawn
    exact hu.congr rfl rfl
  unfold World.started
  split
  · exact hsupervise _ h.setBody _
  · apply spawn
    exact (hsupervise _ h.setBody _).congr rfl rfl

/-- Once the handshake is accepted, a `start()` returns and a reconnect goes on to its replay. -/
theorem opened (h : Calm w v) : Calm w (v.opened cfg τ c) := by
  unfold World.opened
  have hopened : Calm w (v.modifyConn c (fun conn =>
      { conn with connectedAt := some v.now, registryAtOpen := v.subscriptions })) :=
    h.modifyConn_of_sock (fun _ => rfl)
  simp only
  split
  · exact hopened.replayNext _
  · exact hopened.started

/-- A handshake that failed ends a `start()`, and sends a reconnect back to the pump. -/
theorem openFailed (h : Calm w v) : Calm w (v.openFailed cfg τ) := by
  unfold World.openFailed
  split
  · exact h.beginPump
  · exact h.setBody

/-- `open()` gets to its next stage. -/
theorem setStage (h : Calm w v) (stage : OpenStage) : Calm w (v.setStage τ stage) := by
  unfold World.setStage
  split
  · exact h.setBody
  · exact h.setBody
  · exact h

/-- A step of `open()` that does not connect the socket. -/
theorem openStep (h : w.openStep cfg τ e = some w') (htask : e.task = some τ)
    (hconnect : e ≠ .connected τ) : Calm w w' := by
  obtain ⟨c, stage, -, hopens⟩ := openStep_cases htask h
  have hpop (inbox : List Inbound) :
      Calm w (w.modifyConn c (fun conn => { conn with inbox := inbox })) :=
    (refl w).modifyConn_of_sock (fun _ => rfl)
  cases hopens with
  | connected => exact absurd rfl hconnect
  | sent => exact (refl w).setStage _
  | raised => exact (refl w).openFailed
  | refused => exact (hpop _).openFailed
  | accepted => exact (hpop _).opened

/-! ## The other tasks -/

/-- `recv` returns a frame, which is then dispatched. -/
theorem recvStep (h : w.recvStep cfg σ = some w') : Calm w w' := by
  unfold World.recvStep at h
  split at h
  · rename_i attempt c hb
    split at h
    · rename_i f inbox hinbox
      have hpop : Calm w (w.modifyConn c (fun conn => { conn with inbox := inbox })) :=
        (refl w).modifyConn_of_sock (fun _ => rfl)
      simp only at h
      split at h
      · split at h <;> cases h
        · exact hpop
        · exact hpop.pumpReturned _
        · exact hpop.setBody
      · cases h
        exact hpop.pumpReturned _
    · cases h
  · cases h

/-- A callback sends a request of its own. -/
theorem callbackCallStep {op : Operation} (h : w.callbackCallStep cfg σ op = some w') :
    Calm w w' := by
  unfold World.callbackCallStep at h
  split at h
  · have hperform := (refl w).perform cfg (.callback σ) op
    split at h
    · rename_i u k hcall
      rw [hcall] at hperform
      cases h
      exact hperform.setBody
    · rename_i u hcall
      rw [hcall] at hperform
      cases h
      exact hperform
  · cases h

/-- A callback returns or raises, and the next one is called. -/
theorem callbackEndStep {result : CallbackResult}
    (h : w.callbackEndStep cfg σ result = some w') : Calm w w' := by
  unfold World.callbackEndStep at h
  split at h
  · split at h <;> cases h
    · exact (refl w).pumpReturned _
    · exact (refl w).dispatch
    · exact (refl w).runHandlers _ _
  · cases h

/-- A task wakes from its sleep: the supervise task reconnects, and a heartbeat pings. -/
theorem wakeStep (h : w.wakeStep cfg τ = some w') : Calm w w' := by
  unfold World.wakeStep at h
  split at h
  · split at h
    · split at h <;> cases h
      · apply setBody
        exact (refl w).concat rfl rfl
      · exact (refl w).setBody
    · cases h
  · split at h <;> cases h
    exact (refl w).replayNext _
  · split at h <;> cases h
    exact (refl w).heartbeatPing
  · split at h <;> cases h
    exact (refl w).heartbeatLoop
  · cases h

/-- A close that was awaited is over. -/
theorem closeDoneStep (h : w.closeDoneStep cfg τ = some w') : Calm w w' := by
  unfold World.closeDoneStep at h
  split at h <;> cases h
  · exact (refl w).endClose.heartbeatLoop
  · apply setBody
    exact (refl w).endClose.congr rfl rfl

/-- A `CancelledError` that is thrown into a task clears the request that led to it. -/
theorem cancelStep (h : w.cancelStep cfg τ = some w') : Calm w w' := by
  have hend (k : ℕ) (outcome : Outcome) : Calm w (w.endCall cfg k outcome) :=
    (refl w).congr (tasks_endCall cfg w k outcome) (conns_endCall cfg w k outcome)
  unfold World.cancelStep at h
  split at h <;> cases h
  · exact (refl w).pumpReturned _
  · exact (refl w).setBody
  · exact (hend _ _).setBody
  · exact (hend _ _).setBody
  · exact (hend _ _).setBody
  · exact (refl w).setBody
  · exact (refl w).setBody

/-- A connection that `stop()` gives up keeps its socket as it is. -/
theorem detach (h : Calm w v) : Calm w (v.modifyConn c Connection.detach) :=
  h.modifyConn_of_sock (fun _ => rfl)

/-- `stop()` ends once every request has been cancelled. -/
theorem stopFinish (h : Calm w v) : Calm w (v.stopFinish τ) := by
  apply setBody
  exact h.congr rfl rfl

/-- `stop()` closes the connection that `_conn` holds, if it holds one. -/
theorem stopClose (h : Calm w v) : Calm w (v.stopClose τ) := by
  unfold World.stopClose
  split
  · exact h.stopFinish
  · split
    · exact h.beginClose.setBody
    · exact h.detach.stopFinish

/-- A step in which no task is told to cancel and no socket is connected or closed by its peer. -/
theorem of_step (h : step cfg w e = some w') (hstop : e ≠ .stop) (hstops : ∀ τ, e ≠ .stopStep τ)
    (hconnect : ∀ τ, e ≠ .connected τ) (hclose : ∀ c clean, e ≠ .sockClosed c clean) :
    Calm w w' := by
  cases e with
  | tick d =>
    simp only [step] at h
    split at h <;> cases h
    exact (refl w).congr rfl rfl
  | frame c f =>
    simp only [step] at h
    split at h <;> cases h
    exact (refl w).modifyConn_of_sock (fun _ => rfl)
  | sockClosing c =>
    cases h
    exact (refl w).beginClose
  | sockClosed c clean => exact absurd rfl (hclose c clean)
  | connected τ => exact absurd rfl (hconnect τ)
  | connectFailed | authSent | authSendFailed | authReply | authTimeout | authClosed =>
    exact openStep (step_guarded h) rfl (by simp)
  | start =>
    obtain rfl := Option.some.inj h
    unfold World.beginStart
    split
    · exact refl w
    · apply spawn
      exact (refl w).concat rfl rfl
  | cancelStart τ =>
    simp only [step] at h
    split at h <;> cases h
    exact (refl w).setBody
  | stop => exact absurd rfl hstop
  | call op =>
    obtain rfl := Option.some.inj h
    exact (refl w).perform _ _ _
  | send message =>
    simp only [step] at h
    split at h <;> cases h
    · exact (refl w).modifyConn_of_sock (fun conn => Connection.sock_write conn _)
    · exact refl w
  | addHandler channel handler =>
    cases h
    exact (refl w).congr rfl rfl
  | removeHandler channel handler =>
    simp only [step] at h
    split at h <;> cases h
    · exact (refl w).congr rfl rfl
    · exact refl w
  | clearHandlers channel =>
    cases channel <;> cases h <;> exact (refl w).congr rfl rfl
  | sent | sendFailed | resume | timeout | cancel => exact callStep h rfl
  | run τ =>
    have hrun := step_guarded h
    unfold World.runStep at hrun
    split at hrun <;> cases hrun
    · exact (refl w).beginPump
    · exact (refl w).heartbeatLoop
  | recv τ => exact recvStep (step_guarded h)
  | socketEnd τ =>
    obtain ⟨a, c, exc, -, rfl⟩ := socketEnd_cases h
    exact (refl w).pumpReturned exc
  | callbackCall τ op => exact callbackCallStep (step_guarded h)
  | callbackEnd τ result => exact callbackEndStep (step_guarded h)
  | wake τ => exact wakeStep (step_guarded h)
  | closeDone τ => exact closeDoneStep (step_guarded h)
  | stopStep τ => exact absurd rfl (hstops τ)
  | deliverCancel τ =>
    simp only [step] at h
    split at h
    · exact cancelStep h
    · cases h

end Calm

/-! ## Cancellations -/

/-- A task is told to cancel by a `stop()` that begins, or by one that has awaited the supervise
task and goes on with the heartbeat task. -/
theorem cancels_of_step (h : step cfg w e = some w') (hcancelled : w'.isCancelled σ = true) :
    w.isCancelled σ = true ∨ (e = .stop ∧ w.running = true) ∨
      ∃ τ σ', e = .stopStep τ ∧ w.body τ = .stop (.awaitingSupervise σ' (some σ)) := by
  by_cases hstop : e = .stop
  · subst hstop
    cases hrun : w.running with
    | true => exact .inr (.inl ⟨rfl, rfl⟩)
    | false =>
      simp only [step, hrun, Bool.false_eq_true, if_false, Option.some.injEq] at h
      exact .inl (h ▸ hcancelled)
  by_cases hstops : ∃ τ, e = .stopStep τ
  · obtain ⟨τ, rfl⟩ := hstops
    simp only [step, World.stopStep] at h
    split at h
    · rename_i σ' heartbeat hb
      split at h <;> cases h
      unfold World.stopHeartbeat at hcancelled
      split at hcancelled
      · exact .inl ((Calm.refl w).stopClose.cancels σ hcancelled)
      · rename_i η hη
        by_cases heq : η = σ
        · subst heq
          obtain ⟨hsome, -⟩ := Option.filter_eq_some_iff.mp hη
          exact .inr (.inr ⟨τ, σ', rfl, by rw [hb, hsome]⟩)
        · have hcancelled' := (Calm.refl (w.requestCancel η)).setBody.cancels σ hcancelled
          exact .inl (by simpa [World.isCancelled, heq] using hcancelled')
    · split at h <;> cases h
      exact .inl ((Calm.refl w).stopClose.cancels σ hcancelled)
    · cases h
  by_cases hconnect : ∃ τ, e = .connected τ
  · obtain ⟨τ, rfl⟩ := hconnect
    obtain ⟨c, stage, -, hopens⟩ := openStep_cases rfl (step_guarded h)
    cases hopens with
    | connected =>
      have hcalm (v : World) : Calm v (v.setStage τ .sendingAuth) := (Calm.refl v).setStage _
      have hcancelled' := (hcalm _).cancels σ hcancelled
      exact .inl hcancelled'
    | raised => exact .inl ((Calm.refl w).openFailed.cancels σ hcancelled)
  by_cases hclose : ∃ c clean, e = .sockClosed c clean
  · obtain ⟨c, clean, rfl⟩ := hclose
    simp only [step] at h
    split at h <;> cases h
    exact .inl hcancelled
  push Not at hstops hconnect hclose
  exact .inl ((Calm.of_step h hstop hstops hconnect hclose).cancels σ hcancelled)

/-! ## Sockets that have closed -/

/-- A connection without a socket gets one from `websockets.connect` only. -/
theorem absent_of_step (h : step cfg w e = some w') (hnot : ¬Connects w e c)
    (habsent : w.sock c = .absent) : w'.sock c = .absent := by
  have stopped (v : World) (hconns : v.conns = w.conns) (τ : ℕ) (heartbeat : Option ℕ) :
      (v.stopHeartbeat τ heartbeat).sock c = .absent := by
    have habsent' : v.sock c = .absent := by simpa [World.sock, hconns] using habsent
    unfold World.stopHeartbeat
    split
    · exact (Calm.refl v).stopClose.opens c habsent'
    · exact habsent'
  by_cases hstop : e = .stop
  · subst hstop
    simp only [step] at h
    split at h <;> cases h
    · unfold World.beginStop
      simp only
      split
      · apply stopped
        rfl
      · exact habsent
    · exact habsent
  by_cases hstops : ∃ τ, e = .stopStep τ
  · obtain ⟨τ, rfl⟩ := hstops
    simp only [step, World.stopStep] at h
    split at h
    · split at h <;> cases h
      exact stopped w rfl _ _
    · split at h <;> cases h
      exact (Calm.refl w).stopClose.opens c habsent
    · cases h
  by_cases hconnect : ∃ τ, e = .connected τ
  · obtain ⟨τ, rfl⟩ := hconnect
    obtain ⟨c', stage, -, hopens⟩ := openStep_cases rfl (step_guarded h)
    cases hopens with
    | connected hopening =>
      have hne : c ≠ c' := by
        rintro rfl
        exact hnot ⟨τ, rfl, hopening⟩
      apply ((Calm.refl _).setStage .sendingAuth).opens
      rw [World.sock_modifyConn_of_ne _ hne]
      exact habsent
    | raised => exact (Calm.refl w).openFailed.opens c habsent
  by_cases hclose : ∃ c clean, e = .sockClosed c clean
  · obtain ⟨c', clean, rfl⟩ := hclose
    simp only [step] at h
    split at h
    · rename_i hopen
      cases h
      have hne : c ≠ c' := by
        rintro rfl
        simp [habsent] at hopen
      rw [World.sock_modifyConn_of_ne _ hne]
      exact habsent
    · cases h
  push Not at hstops hconnect hclose
  exact (Calm.of_step h hstop hstops hconnect hclose).opens c habsent

/-- In every state of every run, a connection that is to be connected has no socket yet. -/
theorem absent_of_connecting {es : List Event} (hrun : Run (step cfg) always World.init es w)
    (hconnecting : w.opening? τ = some (c, .connecting)) : w.sock c = .absent := by
  induction hrun generalizing τ c with
  | nil => simp [World.init, World.sock]
  | @snoc es v w e hes _ hstep ih =>
    have hopenings := openings_of_run hes
    rcases connecting_of_step (sound_of_run hes) hopenings hstep hconnecting with
      ⟨hold, htask⟩ | hle
    · apply absent_of_step hstep _ (ih hold)
      rintro ⟨τ', rfl, hopening⟩
      obtain rfl := hopenings.alone τ τ' c _ _ hold hopening
      exact htask rfl
    · apply absent_of_step hstep
      · rintro ⟨τ', -, hopening⟩
        have hlt := hopenings.bound τ' c _ hopening
        omega
      · simp [World.sock, List.getElem?_eq_none hle]

/-- A closed socket stays closed, as `open()` alone connects one and does so on a connection of its
own. -/
theorem Move.closed {w₀ : World} (h : Move cfg w₀ e w w') (hnot : ¬Connects w₀ e c)
    (hclosed : ∃ clean, w.sock c = .closed clean) : ∃ clean, w'.sock c = .closed clean := by
  obtain ⟨clean, hclosed⟩ := hclosed
  obtain ⟨conn, hconn, hsock⟩ : ∃ conn, w.conns[c]? = some conn ∧ conn.sock = .closed clean := by
    cases hconn : w.conns[c]? with
    | none => simp [World.sock, hconn] at hclosed
    | some conn => exact ⟨conn, rfl, by simpa [World.sock, hconn] using hclosed⟩
  have hlt := (List.getElem?_eq_some_iff.mp hconn).1
  have hlength : w.conns.length ≤ w'.conns.length := Moves.conns_length (.single h)
  obtain ⟨conn', hconn'⟩ : ∃ conn', w'.conns[c]? = some conn' :=
    ⟨_, List.getElem?_eq_getElem (hlt.trans_le hlength)⟩
  have same (hsame : conn'.sock = .closed clean) : ∃ clean, w'.sock c = .closed clean :=
    ⟨clean, by simp [World.sock, hconn', hsame]⟩
  rcases h.conn_cases hconn' with hold | ⟨f, conn₀, halters, hold, rfl⟩ |
    ⟨k, frame, conn₀, hold, rfl, -⟩ | ⟨rfl, -⟩
  · exact same (Option.some.inj (hconn.symm.trans hold) ▸ hsock)
  · obtain rfl := Option.some.inj (hconn.symm.trans hold)
    cases halters with
    | beginClose => exact same (by simp [Connection.beginClose, hsock])
    | endClose => exact same (by simp [Connection.endClose, Connection.detach, hsock])
    | @close clean' => exact ⟨clean', by simp [World.sock, hconn']⟩
    | connect he hw hopening => exact absurd ⟨_, he, hw ▸ hopening⟩ hnot
    | message => exact same (by rw [Connection.sock_write, hsock])
    | _ => exact same hsock
  · obtain rfl := Option.some.inj (hconn.symm.trans hold)
    exact same (by rw [Connection.sock_write, hsock])
  · omega

/-- So it stays closed throughout a step that does not connect it. -/
theorem Moves.closed {w₀ : World} (h : Moves cfg w₀ e w₀ w) (hnot : ¬Connects w₀ e c)
    (hclosed : ∃ clean, w₀.sock c = .closed clean) : ∃ clean, w.sock c = .closed clean := by
  induction h with
  | refl => exact hclosed
  | tail _ hlast ih => exact hlast.closed hnot ih

/-- A socket that has closed stays closed, and no frame arrives on it any more. -/
theorem closed_of_step {es : List Event} (hrun : Run (step cfg) always World.init es w)
    (hstep : step cfg w e = some w') (hclosed : ∃ clean, w.sock c = .closed clean) :
    (∃ clean, w'.sock c = .closed clean) ∧ (w'.inbox c).length ≤ (w.inbox c).length := by
  have hsound : Sound cfg w := sound_of_run hrun
  have hnot : ¬Connects w e c := by
    rintro ⟨τ, -, hopening⟩
    obtain ⟨clean, hclosed⟩ := hclosed
    rw [absent_of_connecting hrun hopening] at hclosed
    cases hclosed
  constructor
  · exact (step_moves hsound.linked hstep).closed hnot hclosed
  · have hinbox := congrArg List.length (inbox_step hsound.linked hstep c)
    have harrived : arrived c w e = none := by
      unfold arrived
      split
      · rename_i c' f
        rw [if_neg]
        rintro rfl
        obtain ⟨clean, hclosed⟩ := hclosed
        simp [step, hclosed] at hstep
      · rfl
    simp only [List.length_append, harrived, Option.toList_none, List.length_nil] at hinbox
    omega

end ProxyClient.Websocket
