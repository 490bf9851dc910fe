import ProxyClient.Websocket.Announced
import ProxyClient.Websocket.Reconnects

/-!
# Every `stop()` returns

A `stop()` cancels the supervise task and awaits it, then the heartbeat task, and then closes the
connection. A task that is told to cancel ends in its next step, unless it runs a callback, which
gets the `CancelledError` first. So a `stop()` returns if callbacks let that error through and no
`start()` sets the client running again meanwhile.
-/

namespace ProxyClient.Websocket

open Transition Transition.Execution

variable {cfg : Config} {w w' : World} {e : Event} {τ σ η c : ℕ} {pc : StopAt} {f : Inbound}
  {cb : Callback}

/-! ## Tasks that unwind -/

/-- A task runs a coroutine of one role, or it has ended. -/
structure Serves (r : Role) (σ : ℕ) (w : World) : Prop where
  lt : σ < w.tasks.length
  role : (w.body σ).role = r ∨ w.body σ = .finished

/-- A task has ended: its coroutine has returned or raised. -/
abbrev Over (σ : ℕ) : World → Prop := Serves .done σ

/-- The coroutine of a task that is over has finished. -/
theorem Over.body (h : Over σ w) : w.body σ = .finished :=
  h.role.elim Body.role_eq_done.mp id

/-- A task whose coroutine has finished is over. -/
theorem Over.of_body (hlt : σ < w.tasks.length) (hb : w.body σ = .finished) : Over σ w :=
  ⟨hlt, .inr hb⟩

/-- A task keeps its role until it ends. -/
theorem Serves.step {r : Role} (h : Serves r σ w) (hsound : Sound cfg w)
    (hstep : step cfg w e = some w') : Serves r σ w' := by
  have hmoves := step_moves hsound.linked hstep
  refine ⟨h.lt.trans_le hmoves.tasks_length, ?_⟩
  rcases hmoves.role σ with hdone | hsame | ⟨hle, -⟩
  · exact .inr (Body.role_eq_done.mp hdone)
  · rcases h.role with hrole | hfinished
    · exact .inl (hsame.trans hrole)
    · rw [hfinished] at hsame
      exact .inr (Body.role_eq_done.mp hsame)
  · have hlt := h.lt
    omega

/-- A task in the background is to be cancelled. -/
structure Doomed (σ : ℕ) (w : World) : Prop where
  flag : w.isCancelled σ = true
  role : (w.body σ).role = .supervise ∨ (w.body σ).role = .heartbeat

/-- A task is to be cancelled, or a callback of it runs on, or it has ended. -/
def Unwinds (σ : ℕ) (w : World) : Prop :=
  Doomed σ w ∨ (∃ c f cb, Runs σ c f cb w) ∨ Over σ w

/-- A doomed task has not ended yet. -/
theorem Doomed.ne_finished (h : Doomed σ w) : w.body σ ≠ .finished := by
  intro hb
  have hrole := h.role
  simp [hb, Body.role] at hrole

/-- So it is one of the tasks that were created. -/
theorem Doomed.lt (h : Doomed σ w) : σ < w.tasks.length := World.lt_of_body_ne h.ne_finished

/-- A task that runs a callback has not ended yet. -/
theorem Runs.ne_finished (h : Runs σ c f cb w) : w.body σ ≠ .finished := by
  obtain ⟨a, hb | ⟨k, hb⟩⟩ := h <;> simp [hb]

/-- So it is one of them as well. -/
theorem Runs.lt (h : Runs σ c f cb w) : σ < w.tasks.length := World.lt_of_body_ne h.ne_finished

/-- A cancellation that waits can be delivered, whatever the task awaits. -/
theorem Doomed.enabled (h : Doomed σ w) : (step cfg w (.deliverCancel σ)).isSome = true := by
  have hrole := h.role
  simp only [step, h.flag, if_true, World.cancelStep]
  cases hb : w.body σ with
  | supervise a pc => cases pc <;> rfl
  | heartbeat pc => cases pc <;> rfl
  | _ => simp [hb, Body.role] at hrole

/-- A task that is to be cancelled takes no step but the one that delivers the cancellation. -/
theorem Doomed.event_of_task (h : Doomed σ w) (htask : e.task = some σ)
    (hstep : step cfg w e = some w') : e = .deliverCancel σ := by
  have hrole := h.role
  cases e <;> cases htask
  case deliverCancel => rfl
  case cancelStart =>
    simp only [step] at hstep
    split at hstep
    · rename_i hb
      simp [hb, Body.role] at hrole
    · cases hstep
  case stopStep =>
    simp only [step, World.stopStep] at hstep
    split at hstep
    · rename_i hb
      simp [hb, Body.role] at hrole
    · rename_i hb
      simp [hb, Body.role] at hrole
    · cases hstep
  all_goals simp [step, h.flag] at hstep

/-- The next step of a doomed task is the `CancelledError`. -/
theorem Doomed.event (h : Doomed σ w) (hact : Acts w e σ) (hstep : step cfg w e = some w') :
    e = .deliverCancel σ := by
  cases hact with
  | stop => exact absurd h.lt (lt_irrefl _)
  | task htask => exact h.event_of_task htask hstep
  | @call e k call _ hcallNo hcall htask =>
    have hcallStep : w.callStep cfg k e = some w' := by
      cases e <;> cases hcallNo <;> exact hstep
    have hfree : w.ownerFree call.owner = false := by
      cases howner : call.owner <;> rw [howner] at htask <;> cases htask <;>
        simp [World.ownerFree, h.flag]
    simp [World.callStep, hcall, hfree] at hcallStep

/-- It stays so until then, as no other step of the task is possible. -/
theorem Doomed.stays (h : Doomed σ w) (hsound : Sound cfg w) (hne : e ≠ .deliverCancel σ)
    (hstep : step cfg w e = some w') : Doomed σ w' := by
  have hact : ¬Acts w e σ := fun hact => hne (h.event hact hstep)
  have hmoves := step_moves hsound.linked hstep
  refine ⟨hmoves.isCancelled hact h.flag, ?_⟩
  rw [hmoves.body_of_not_acts hact h.ne_finished]
  exact h.role

/-- A callback gets the `CancelledError` of its task. -/
theorem Runs.cancel (h : Runs σ c f cb w) (hstep : step cfg w (.deliverCancel σ) = some w') :
    Runs σ c f cb w' := by
  obtain ⟨a, hruns⟩ := h
  have hlt : σ < w.tasks.length := World.lt_of_body_ne (by
    rcases hruns with hb | ⟨k, hb⟩ <;> simp [hb])
  have hcancel : w.cancelStep cfg σ = some w' := by
    simp only [step] at hstep
    split at hstep
    · exact hstep
    · cases hstep
  rcases hruns with hb | ⟨k, hb⟩
  · simp only [World.cancelStep, hb, Option.some.injEq] at hcancel
    subst hcancel
    exact ⟨a, .inl (World.body_setBody_self _ hlt)⟩
  · simp only [World.cancelStep, hb, Option.some.injEq] at hcancel
    subst hcancel
    exact ⟨a, .inl (World.body_setBody_self _ (by rwa [tasks_endCall]))⟩

/-- The cancellation ends the task, or a callback of it gets the error. -/
theorem Doomed.cancel (h : Doomed σ w) (hidle : w.running = false)
    (hstep : step cfg w (.deliverCancel σ) = some w') :
    (∃ c f cb, Runs σ c f cb w') ∨ w'.body σ = .finished := by
  have hlt := h.lt
  by_cases hruns : ∃ c f cb, Runs σ c f cb w
  · obtain ⟨c, f, cb, hruns⟩ := hruns
    exact .inl ⟨c, f, cb, hruns.cancel hstep⟩
  have hcancel : w.cancelStep cfg σ = some w' := by simpa only [step, h.flag, if_true] using hstep
  refine .inr ?_
  unfold World.cancelStep at hcancel
  split at hcancel <;> cases hcancel
  · rw [pumpReturned_stopped hidle]
    exact World.body_setBody_self _ hlt
  · rename_i a c f cb hb
    exact absurd ⟨c, f, cb, a, .inl hb⟩ hruns
  · rename_i a c f cb k hb
    exact absurd ⟨c, f, cb, a, .inr ⟨k, hb⟩⟩ hruns
  · exact World.body_setBody_self _ (by rwa [tasks_endCall])
  · exact World.body_setBody_self _ (by rwa [tasks_endCall])
  · exact World.body_setBody_self _ hlt
  · exact World.body_setBody_self _ hlt

/-- A callback that lets the `CancelledError` through ends its task if the client does not run. -/
theorem Busy.callback_ends {a N : ℕ} (h : Busy N σ c f cb w)
    (hb : w.body σ = .supervise a (.inCallback c f cb)) (hidle : w.running = false)
    (hobeys : ∀ result, e = .callbackEnd σ result → result = .cancelled)
    (htask : e.task = some σ) (hstep : Websocket.step cfg w e = some w') :
    Runs σ c f cb w' ∨ w'.body σ = .finished := by
  have hlt : σ < w.tasks.length := World.lt_of_body_ne (by simp [hb])
  cases e <;> cases htask
  case callbackCall op => exact .inl (h.callbackCall_step hb hstep).runs
  case callbackEnd result =>
    obtain rfl := hobeys result rfl
    simp only [Websocket.step, h.free, World.callbackEndStep, hb, Bool.false_eq_true, if_false,
      Option.some.injEq] at hstep
    subst hstep
    rw [pumpReturned_stopped hidle]
    exact .inr (World.body_setBody_self _ hlt)
  all_goals
    simp [Websocket.step, h.free, World.openStep, World.opening?, World.runStep, World.recvStep,
      World.socketEndStep, World.wakeStep, World.closeDoneStep, World.stopStep, hb] at hstep

/-- A callback of a client that does not run goes on in a step, or its task ends. -/
theorem Runs.step (h : Runs σ c f cb w) (hsound : Sound cfg w) (hidle : w.running = false)
    (hobeys : ∀ result, e = .callbackEnd σ result → result = .cancelled)
    (hstep : Websocket.step cfg w e = some w') :
    Runs σ c f cb w' ∨ w'.body σ = .finished := by
  obtain ⟨a, hruns⟩ := h
  have hne : w.body σ ≠ .finished := by rcases hruns with hb | ⟨k, hb⟩ <;> simp [hb]
  by_cases hact : Acts w e σ
  swap
  · refine .inl ⟨a, ?_⟩
    rwa [(step_moves hsound.linked hstep).body_of_not_acts hact hne]
  cases hflag : w.isCancelled σ with
  | true =>
    have hdoomed : Doomed σ w := by
      refine ⟨hflag, .inl ?_⟩
      rcases hruns with hb | ⟨k, hb⟩ <;> rw [hb] <;> rfl
    obtain rfl := hdoomed.event hact hstep
    exact .inl (Runs.cancel ⟨a, hruns⟩ hstep)
  | false =>
    have hbusy : Busy 0 σ c f cb w := ⟨Nat.zero_le _, hflag, a, hruns⟩
    rcases hruns with hb | ⟨k, hb⟩
    · have htask := task_of_acts hsound.linked hstep hact (World.lt_of_body_ne hne)
        (by rw [hb]; rfl)
      exact hbusy.callback_ends hb hidle hobeys htask hstep
    · exact .inl (hbusy.call_step hsound hb hact hstep).runs


/-- A task of a client that does not run goes on to unwind. -/
theorem Unwinds.step (h : Unwinds σ w) (hsound : Sound cfg w) (hidle : w.running = false)
    (hobeys : ∀ result, e = .callbackEnd σ result → result = .cancelled)
    (hstep : Websocket.step cfg w e = some w') : Unwinds σ w' := by
  have hlength := (step_moves hsound.linked hstep).tasks_length
  rcases h with hdoomed | ⟨c, f, cb, hruns⟩ | hover
  · by_cases he : e = .deliverCancel σ
    · subst he
      rcases hdoomed.cancel hidle hstep with hruns | hfinished
      · exact .inr (.inl hruns)
      · exact .inr (.inr (.of_body (hdoomed.lt.trans_le hlength) hfinished))
    · exact .inl (hdoomed.stays hsound he hstep)
  · rcases hruns.step hsound hidle hobeys hstep with hruns' | hfinished
    · exact .inr (.inl ⟨c, f, cb, hruns'⟩)
    · exact .inr (.inr (.of_body (hruns.lt.trans_le hlength) hfinished))
  · exact .inr (.inr (hover.step hsound hstep))

/-! ## The way of a `stop()` -/

/-- The task that a `stop()` awaits, if it awaits one. -/
def StopAt.task : StopAt → Option ℕ
  | awaitingSupervise σ _ => some σ
  | awaitingHeartbeat η => some η
  | closing _ => none

/-- The client as a `stop()` finds it when it cancels the first task. -/
def World.halted (w : World) : World :=
  World.spawn { w with running := false, shutdown := true } .finished

/-- `stop()` cancels the supervise task and awaits it, or goes on to the heartbeat when there is
none alive. -/
theorem beginStop_cases (w : World) :
    (w.superviseTask.filter w.halted.alive = none ∧
      w.beginStop = w.halted.stopHeartbeat w.tasks.length w.heartbeatTask) ∨
    ∃ σ, w.superviseTask.filter w.halted.alive = some σ ∧
      w.beginStop = (w.halted.requestCancel σ).setBody w.tasks.length
        (.stop (.awaitingSupervise σ w.heartbeatTask)) := by
  unfold World.beginStop
  simp only
  split
  · rename_i hnone
    exact .inl ⟨hnone, rfl⟩
  · rename_i σ hσ
    exact .inr ⟨σ, hσ, rfl⟩

/-- Only its own steps take a `stop()` further. -/
theorem event_of_stop (hb : w.body τ = .stop pc) (hsound : Sound cfg w) (hact : Acts w e τ)
    (hstep : step cfg w e = some w') : e = .stopStep τ ∨ e = .closeDone τ := by
  have hlt : τ < w.tasks.length := World.lt_of_body_ne (by simp [hb])
  have htask := task_of_acts hsound.linked hstep hact hlt (by rw [hb]; rfl)
  cases e <;> cases htask
  case stopStep => exact .inl rfl
  case closeDone => exact .inr rfl
  all_goals
    simp [step, World.openStep, World.opening?, World.runStep, World.recvStep,
      World.socketEndStep, World.callbackCallStep, World.callbackEndStep, World.wakeStep,
      World.cancelStep, hb] at hstep

/-- Closing the connection, `stop()` awaits no supervise task that it did not await before. -/
theorem awaiting_of_stopClose {heartbeat : Option ℕ} {τ' : ℕ}
    (hb : (w.stopClose τ').body τ = .stop (.awaitingSupervise σ heartbeat)) :
    w.body τ = .stop (.awaitingSupervise σ heartbeat) := by
  have setBody {v : World} {b : Body} (hbody : v.body = w.body)
      (hne : b ≠ .stop (.awaitingSupervise σ heartbeat))
      (hb : (v.setBody τ' b).body τ = .stop (.awaitingSupervise σ heartbeat)) :
      w.body τ = .stop (.awaitingSupervise σ heartbeat) := by
    rcases World.body_setBody_cases (w := v) (τ := τ') (b := b) τ with ⟨-, hnew, -⟩ | hold
    · exact absurd (hnew.symm.trans hb) hne
    · rw [← hbody, ← hold, hb]
  unfold World.stopClose at hb
  split at hb
  · exact setBody rfl (by simp) hb
  · split at hb
    · exact setBody rfl (by simp) hb
    · exact setBody rfl (by simp) hb

/-- Nor does it on its way to the heartbeat. -/
theorem awaiting_of_stopHeartbeat {heartbeat heartbeat' : Option ℕ} {τ' : ℕ}
    (hb : (w.stopHeartbeat τ' heartbeat').body τ = .stop (.awaitingSupervise σ heartbeat)) :
    w.body τ = .stop (.awaitingSupervise σ heartbeat) := by
  unfold World.stopHeartbeat at hb
  split at hb
  · exact awaiting_of_stopClose hb
  · rename_i η _
    rcases World.body_setBody_cases (w := w.requestCancel η) (τ := τ')
      (b := .stop (.awaitingHeartbeat η)) τ with ⟨-, hnew, -⟩ | hold
    · simp [hnew] at hb
    · rw [← World.body_requestCancel w η τ, ← hold, hb]

/-- A `stop()` that begins awaits the supervise task with the heartbeat task still to come. -/
theorem awaiting_of_beginStop {heartbeat : Option ℕ}
    (hb : w.beginStop.body τ = .stop (.awaitingSupervise σ heartbeat)) :
    w.body τ = .stop (.awaitingSupervise σ heartbeat) ∨ heartbeat = w.heartbeatTask := by
  have old (h : w.halted.body τ = .stop (.awaitingSupervise σ heartbeat)) :
      w.body τ = .stop (.awaitingSupervise σ heartbeat) := by
    rcases World.body_spawn_cases (w := { w with running := false, shutdown := true })
      (b := .finished) τ with ⟨-, hnew⟩ | hold
    · exact absurd (hnew.symm.trans h) (by simp)
    · exact hold.symm.trans h
  rcases beginStop_cases w with ⟨-, hbegin⟩ | ⟨σ', -, hbegin⟩
  · exact .inl (old (awaiting_of_stopHeartbeat (hbegin ▸ hb)))
  · rw [hbegin] at hb
    rcases World.body_setBody_cases (w := w.halted.requestCancel σ') (τ := w.tasks.length)
      (b := .stop (.awaitingSupervise σ' w.heartbeatTask)) τ with ⟨-, hnew, -⟩ | hold
    · rw [hnew] at hb
      simp only [Body.stop.injEq, StopAt.awaitingSupervise.injEq] at hb
      exact .inr hb.2.symm
    · rw [hold, World.body_requestCancel] at hb
      exact .inl (old hb)

/-- A `stop()` that goes on does not begin to await the supervise task. -/
theorem awaiting_of_stop {heartbeat : Option ℕ} (hpc : w.body τ = .stop pc)
    (he : e = .stopStep τ ∨ e = .closeDone τ) (hstep : step cfg w e = some w')
    (hb : w'.body τ = .stop (.awaitingSupervise σ heartbeat)) :
    w.body τ = .stop (.awaitingSupervise σ heartbeat) := by
  rcases he with rfl | rfl
  · simp only [step, World.stopStep, hpc] at hstep
    split at hstep
    · split at hstep <;> cases hstep
      exact awaiting_of_stopHeartbeat hb
    · split at hstep <;> cases hstep
      exact awaiting_of_stopClose hb
    · cases hstep
  · have hclose := step_guarded hstep
    have hlt : τ < w.tasks.length := World.lt_of_body_ne (by simp [hpc])
    cases pc with
    | closing c =>
      simp only [World.closeDoneStep, hpc, Option.some.injEq] at hclose
      subst hclose
      rw [World.stopFinish, World.body_setBody_self _ (by exact hlt)] at hb
      cases hb
    | awaitingSupervise | awaitingHeartbeat => simp [World.closeDoneStep, hpc] at hclose

/-- No other step begins to await the supervise task. -/
theorem awaiting_of_step {heartbeat : Option ℕ} (hsound : Sound cfg w)
    (hstep : step cfg w e = some w')
    (hb : w'.body τ = .stop (.awaitingSupervise σ heartbeat)) :
    w.body τ = .stop (.awaitingSupervise σ heartbeat) ∨ heartbeat = w.heartbeatTask := by
  by_cases hstop : e = .stop
  · subst hstop
    simp only [step] at hstep
    split at hstep <;> cases hstep
    · exact awaiting_of_beginStop hb
    · exact .inl hb
  have hmoves := step_moves hsound.linked hstep
  obtain ⟨pc, hpc⟩ : ∃ pc, w.body τ = .stop pc := by
    rcases hmoves.role τ with hdone | hsame | ⟨-, hcreates⟩
    · simp [hb, Body.role] at hdone
    · rw [hb] at hsame
      cases hpc : w.body τ <;> simp [hpc, Body.role] at hsame
      exact ⟨_, rfl⟩
    · rw [hb] at hcreates
      cases hcreates with
      | stop he => exact absurd he hstop
  by_cases hact : Acts w e τ
  · exact .inl (awaiting_of_stop hpc (event_of_stop hpc hsound hact hstep) hstep hb)
  · exact .inl ((hmoves.body_of_not_acts hact (by simp [hpc])).symm.trans hb)

/-- The tasks that a client remembers, and those that a `stop()` is still to await, have the
roles that it takes them for. -/
structure Remembers (w : World) : Prop where
  supervise : ∀ σ ∈ w.superviseTask, Serves .supervise σ w
  heartbeat : ∀ η ∈ w.heartbeatTask, Serves .heartbeat η w
  awaited : ∀ τ σ η, w.body τ = .stop (.awaitingSupervise σ (some η)) → Serves .heartbeat η w

/-- The heartbeat task that a `start()` creates is ready, or it is the one from before. -/
theorem heartbeat_of_creates (hcreates : Creates w e .heartbeat) (hstep : step cfg w e = some w')
    (hη : η ∈ w'.heartbeatTask) : η ∈ w.heartbeatTask ∨ w'.body η = .heartbeat .ready := by
  cases hcreates with
  | @heartbeat τ c stage hreturns hb =>
    obtain ⟨conns, -, rfl⟩ := started_of_returns hb hreturns hstep
    unfold World.started at hη ⊢
    simp only at hη ⊢
    split at hη
    · exact .inl hη
    · obtain rfl := Option.some.inj hη
      exact .inr (World.body_spawn_self _ _)

/-- Every step keeps what the client remembers of its tasks in step with them. -/
theorem Remembers.step (h : Remembers w) (hsound : Sound cfg w)
    (hstep : step cfg w e = some w') : Remembers w' where
  supervise σ hσ := by
    rcases (step_moves hsound.linked hstep).superviseTask with hsame | hcreates
    · exact (h.supervise σ (hsame ▸ hσ)).step hsound hstep
    · have hb := Supervised.created hcreates hstep hσ
      exact ⟨World.lt_of_body_ne (by simp [hb]), .inl (by rw [hb]; rfl)⟩
  heartbeat η hη := by
    rcases (step_moves hsound.linked hstep).heartbeatTask with hsame | hcreates
    · exact (h.heartbeat η (hsame ▸ hη)).step hsound hstep
    · rcases heartbeat_of_creates hcreates hstep hη with hold | hb
      · exact (h.heartbeat η hold).step hsound hstep
      · exact ⟨World.lt_of_body_ne (by simp [hb]), .inl (by rw [hb]; rfl)⟩
  awaited τ σ η hb := by
    rcases awaiting_of_step hsound hstep hb with hold | hnew
    · exact (h.awaited τ σ η hold).step hsound hstep
    · exact (h.heartbeat η hnew.symm).step hsound hstep

/-- In every state of every run the client remembers its tasks. -/
theorem remembers_of_run {es : List Event} (hrun : Run (step cfg) always World.init es w) :
    Remembers w := by
  induction hrun with
  | nil =>
    refine ⟨?_, ?_, ?_⟩
    · intro σ hσ
      cases hσ
    · intro η hη
      cases hη
    · intro τ σ η hb
      simp [World.init, World.body] at hb
  | snoc hes _ hstep ih => exact ih.step (sound_of_run hes) hstep

/-- A `stop()` is suspended at a point, and the task that it awaits unwinds. -/
structure StopsAt (τ : ℕ) (pc : StopAt) (w : World) : Prop where
  body : w.body τ = .stop pc
  idle : w.running = false
  free : w.isCancelled τ = false
  unwinds : ∀ σ ∈ pc.task, Unwinds σ w

/-- A `stop()` has returned: the client does not run, and no connection and no request is left. -/
structure StopReturned (τ : ℕ) (w : World) : Prop where
  body : w.body τ = .finished
  idle : w.running = false
  conn : w.conn = none
  futures : w.rpc.pending.futures = ∅

/-- A `stop()` has awaited the tasks, and closes the connection or has returned. -/
def AtClose (τ : ℕ) (w : World) : Prop := (∃ c, StopsAt τ (.closing c) w) ∨ StopReturned τ w

/-- A `stop()` has awaited the supervise task, and is at the heartbeat task or past it. -/
def AtHeartbeat (τ : ℕ) (heartbeat : Option ℕ) (w : World) : Prop :=
  (∃ η, heartbeat = some η ∧ StopsAt τ (.awaitingHeartbeat η) w) ∨
    (AtClose τ w ∧ ∀ η ∈ heartbeat, Over η w)

/-- A `stop()` at one of its suspension points is one of the tasks that were created. -/
theorem StopsAt.lt (h : StopsAt τ pc w) : τ < w.tasks.length :=
  World.lt_of_body_ne (by simp [h.body])

/-- At its end `stop()` returns, and leaves the client switched off. -/
theorem stopReturned_stopFinish (hlt : τ < w.tasks.length) (hidle : w.running = false) :
    StopReturned τ (w.stopFinish τ) where
  body := World.body_setBody_self _ (by exact hlt)
  idle := hidle
  conn := rfl
  futures := rfl

/-- When both tasks are over, `stop()` closes the connection that `_conn` holds, or returns at
once. -/
theorem atClose_stopClose (hlt : τ < w.tasks.length) (hidle : w.running = false) :
    AtClose τ (w.stopClose τ) := by
  unfold World.stopClose
  split
  · exact .inr (stopReturned_stopFinish hlt hidle)
  · rename_i c _
    split
    · refine .inl ⟨c, World.body_setBody_self _ (by exact hlt), hidle, ?_, ?_⟩
      · exact isCancelled_setBody_self (by exact hlt)
      · intro σ hσ
        cases hσ
    · exact .inr (stopReturned_stopFinish (by exact hlt) hidle)

/-- A task that a `stop()` cancels is to be cancelled, once the `stop()` awaits it. -/
theorem doomed_requestCancel {r : Role} (h : Serves r σ w) (hr : r = .supervise ∨ r = .heartbeat)
    (halive : w.alive σ = true) (hne : σ ≠ τ) :
    Doomed σ ((w.requestCancel σ).setBody τ (.stop pc)) where
  flag := by
    rw [isCancelled_setBody_of_ne hne]
    simp [World.isCancelled, h.lt]
  role := by
    have hrole := h.role.resolve_right (World.alive_iff.mp halive)
    rw [World.body_setBody_of_ne _ hne, World.body_requestCancel, hrole]
    exact hr

/-- A `stop()` goes on to the heartbeat task. -/
theorem stopHeartbeat_goes {heartbeat : Option ℕ} (hlt : τ < w.tasks.length)
    (hidle : w.running = false) (hserves : ∀ η ∈ heartbeat, Serves .heartbeat η w)
    (hne : τ ∉ heartbeat) :
    (∃ η, heartbeat = some η ∧ StopsAt τ (.awaitingHeartbeat η) (w.stopHeartbeat τ heartbeat)) ∨
      (AtClose τ (w.stopHeartbeat τ heartbeat) ∧ ∀ η ∈ heartbeat, w.body η = .finished) := by
  unfold World.stopHeartbeat
  split
  · rename_i hnone
    refine .inr ⟨atClose_stopClose hlt hidle, ?_⟩
    intro η hη
    have hdead := Option.filter_eq_none_iff.mp hnone η hη
    by_contra hb
    exact hdead (World.alive_iff.mpr hb)
  · rename_i η hη
    obtain ⟨rfl, halive⟩ := Option.filter_eq_some_iff.mp hη
    have hητ : η ≠ τ := by
      rintro rfl
      exact hne rfl
    refine .inl ⟨η, rfl, World.body_setBody_self _ (by simpa using hlt), hidle, ?_, ?_⟩
    · exact isCancelled_setBody_self (by simpa using hlt)
    · intro σ hσ
      obtain rfl := Option.some.inj hσ
      exact .inl (doomed_requestCancel (hserves η rfl) (.inr rfl) halive hητ)

/-- A `stop()` begins, and awaits the supervise task if there is one alive. -/
theorem beginStop_goes (hsupervise : ∀ σ ∈ w.superviseTask, Serves .supervise σ w)
    (hheartbeat : ∀ η ∈ w.heartbeatTask, Serves .heartbeat η w) :
    (∃ σ, w.superviseTask = some σ ∧
      StopsAt w.tasks.length (.awaitingSupervise σ w.heartbeatTask) w.beginStop) ∨
    ((∀ σ ∈ w.superviseTask, w.body σ = .finished) ∧
      ((∃ η, w.heartbeatTask = some η ∧
          StopsAt w.tasks.length (.awaitingHeartbeat η) w.beginStop) ∨
        (AtClose w.tasks.length w.beginStop ∧ ∀ η ∈ w.heartbeatTask, w.body η = .finished))) := by
  have hlt : w.tasks.length < w.halted.tasks.length := by simp [World.halted]
  have hbody {σ : ℕ} (hσ : σ < w.tasks.length) : w.halted.body σ = w.body σ := by
    rw [World.halted, World.body_spawn_of_ne _ (by simpa using hσ.ne)]
    rfl
  have hserves {r : Role} {σ : ℕ} (h : Serves r σ w) : Serves r σ w.halted :=
    ⟨h.lt.trans hlt, by rw [hbody h.lt]; exact h.role⟩
  rcases beginStop_cases w with ⟨hnone, hbegin⟩ | ⟨σ, hσ, hbegin⟩
  · rw [hbegin]
    refine .inr ⟨?_, ?_⟩
    · intro σ hσ
      have hdead := Option.filter_eq_none_iff.mp hnone σ hσ
      rw [← hbody (hsupervise σ hσ).lt]
      by_contra hb
      exact hdead (World.alive_iff.mpr hb)
    · have hne : w.tasks.length ∉ w.heartbeatTask :=
        fun hη => lt_irrefl _ (hheartbeat _ hη).lt
      have hgoes := stopHeartbeat_goes hlt rfl (fun η hη => hserves (hheartbeat η hη)) hne
      refine hgoes.imp_right (And.imp_right ?_)
      intro hover η hη
      rw [← hbody (hheartbeat η hη).lt]
      exact hover η hη
  · obtain ⟨hσ, halive⟩ := Option.filter_eq_some_iff.mp hσ
    have hserve := hsupervise σ hσ
    rw [hbegin]
    refine .inl ⟨σ, hσ, World.body_setBody_self _ (by simpa using hlt), rfl, ?_, ?_⟩
    · exact isCancelled_setBody_self (by simpa using hlt)
    · intro σ' hσ'
      obtain rfl := Option.some.inj hσ'
      exact .inl (doomed_requestCancel (hserves hserve) (.inl rfl) halive hserve.lt.ne)

/-- A `stop()` that takes no step stays where it is. -/
theorem StopsAt.stays (h : StopsAt τ pc w) (hsound : Sound cfg w) (hremembers : Remembers w)
    (hstart : e ≠ .start)
    (hobeys : ∀ σ ∈ pc.task, ∀ result, e = .callbackEnd σ result → result = .cancelled)
    (hact : ¬Acts w e τ) (hstep : step cfg w e = some w') : StopsAt τ pc w' := by
  have hmoves := step_moves hsound.linked hstep
  refine ⟨?_, ?_, ?_, ?_⟩
  · rw [hmoves.body_of_not_acts hact (by simp [h.body]), h.body]
  · cases hrun : w'.running with
    | false => rfl
    | true =>
      rcases hmoves.running hrun with hrun₀ | hstart'
      · rw [h.idle] at hrun₀
        cases hrun₀
      · exact absurd hstart' hstart
  · cases hflag : w'.isCancelled τ with
    | false => rfl
    | true =>
      rcases cancels_of_step hstep hflag with hold | ⟨-, hrun⟩ | ⟨τ', σ', -, hb⟩
      · rw [h.free] at hold
        cases hold
      · rw [h.idle] at hrun
        cases hrun
      · have hrole := (hremembers.awaited τ' σ' τ hb).role
        simp [h.body, Body.role] at hrole
  · intro σ hσ
    exact (h.unwinds σ hσ).step hsound h.idle (hobeys σ hσ) hstep

/-- A `stop()` awaits its task until it has ended. -/
theorem StopsAt.waits (h : StopsAt τ pc w) (hsound : Sound cfg w) (hremembers : Remembers w)
    (hstart : e ≠ .start)
    (hobeys : ∀ σ ∈ pc.task, ∀ result, e = .callbackEnd σ result → result = .cancelled)
    (hσ : σ ∈ pc.task) (hlive : w.body σ ≠ .finished) (hstep : step cfg w e = some w') :
    StopsAt τ pc w' := by
  refine h.stays hsound hremembers hstart hobeys ?_ hstep
  intro hact
  have halive : w.alive σ = true := World.alive_iff.mpr hlive
  rcases event_of_stop h.body hsound hact hstep with rfl | rfl
  · cases pc with
    | closing c => cases hσ
    | awaitingSupervise σ' heartbeat =>
      obtain rfl := Option.some.inj hσ
      simp [step, World.stopStep, h.body, halive] at hstep
    | awaitingHeartbeat η =>
      obtain rfl := Option.some.inj hσ
      simp [step, World.stopStep, h.body, halive] at hstep
  · cases pc with
    | closing c => cases hσ
    | awaitingSupervise | awaitingHeartbeat => simp [step, World.closeDoneStep, h.body] at hstep

/-- A `stop()` that awaits the supervise task goes on to the heartbeat task. -/
theorem StopsAt.supervise_step {heartbeat : Option ℕ}
    (h : StopsAt τ (.awaitingSupervise σ heartbeat) w) (hsound : Sound cfg w)
    (hremembers : Remembers w) (hstep : step cfg w (.stopStep τ) = some w') :
    AtHeartbeat τ heartbeat w' := by
  have hw : w' = w.stopHeartbeat τ heartbeat := by
    simp only [step, World.stopStep, h.body] at hstep
    split at hstep <;> cases hstep
    rfl
  have hserves : ∀ η ∈ heartbeat, Serves .heartbeat η w := by
    intro η hη
    exact hremembers.awaited τ σ η (by rw [h.body, Option.mem_def.mp hη])
  have hne : τ ∉ heartbeat := by
    intro hη
    have hrole := (hserves τ hη).role
    simp [h.body, Body.role] at hrole
  rcases stopHeartbeat_goes h.lt h.idle hserves hne with ⟨η, hη, hstops⟩ | ⟨hclose, hover⟩
  · exact .inl ⟨η, hη, hw ▸ hstops⟩
  · refine .inr ⟨hw ▸ hclose, ?_⟩
    intro η hη
    exact (Over.of_body (hserves η hη).lt (hover η hη)).step hsound hstep

/-- A `stop()` that awaits the heartbeat task goes on to the connection. -/
theorem StopsAt.heartbeat_step (h : StopsAt τ (.awaitingHeartbeat η) w)
    (hstep : step cfg w (.stopStep τ) = some w') : AtClose τ w' := by
  simp only [step, World.stopStep, h.body] at hstep
  split at hstep <;> cases hstep
  exact atClose_stopClose h.lt h.idle

/-- A `stop()` whose connection has closed returns in that step. -/
theorem StopsAt.close_step (h : StopsAt τ (.closing c) w)
    (hstep : step cfg w (.closeDone τ) = some w') : StopReturned τ w' := by
  have hclose := step_guarded hstep
  simp only [World.closeDoneStep, h.body, Option.some.injEq] at hclose
  subst hclose
  exact stopReturned_stopFinish (by exact h.lt) h.idle

/-! ## Fair executions -/

/-- A `CancelledError` is delivered and a step of a `stop()` is taken in the end, every callback
ends, a callback of the task that a `stop()` awaits lets the `CancelledError` through, and no
`start()` is called while a `stop()` is under way. -/
structure FairToStops (x : Execution (step cfg) World.init) : Prop where
  cancels : ∀ σ, x.WeaklyFair {e | e = .deliverCancel σ}
  stops : ∀ τ, x.WeaklyFair {e | e = .stopStep τ ∨ e = .closeDone τ}
  callbacks : ∀ σ c f cb, x.LeadsTo (Runs σ c f cb) (fun w => ¬Runs σ c f cb w)
  obeys : ∀ n τ pc σ result, (x.state n).body τ = .stop pc → σ ∈ pc.task →
    x.label n = .callbackEnd σ result → result = .cancelled
  apart : ∀ n τ pc, (x.state n).body τ = .stop pc → x.label n ≠ .start

section

variable {x : Execution (step cfg) World.init}

/-- So what the client remembers is right in every state of an execution. -/
theorem remembers_of_execution (x : Execution (step cfg) World.init) (n : ℕ) :
    Remembers (x.state n) := by
  obtain ⟨es, hrun⟩ := x.run n
  exact remembers_of_run hrun

/-- A `stop()` waits while the task that it awaits has not ended. -/
theorem waits_next (hfair : FairToStops x) (hσ : σ ∈ pc.task) {n : ℕ}
    (h : StopsAt τ pc (x.state n)) (hlive : (x.state n).body σ ≠ .finished) :
    StopsAt τ pc (x.state (n + 1)) :=
  h.waits (sound_of_execution x n) (remembers_of_execution x n) (hfair.apart n τ pc h.body)
    (fun σ hσ result => hfair.obeys n τ pc σ result h.body hσ) hσ hlive (x.next n)

/-- A task that ends in a step is over after it. -/
theorem over_next {n : ℕ} (hlt : σ < (x.state n).tasks.length)
    (hb : (x.state (n + 1)).body σ = .finished) : Over σ (x.state (n + 1)) := by
  have hmoves := step_moves (sound_of_execution x n).linked (x.next n)
  exact .of_body (hlt.trans_le hmoves.tasks_length) hb

/-- The callback that keeps a `stop()` waiting ends, and its task with it. -/
theorem runs_leadsTo (hfair : FairToStops x) (hσ : σ ∈ pc.task) (c : ℕ) (f : Inbound)
    (cb : Callback) :
    x.LeadsTo (fun w => StopsAt τ pc w ∧ Runs σ c f cb w)
      (fun w => StopsAt τ pc w ∧ Over σ w) := by
  apply LeadsTo.exit
  · rintro n ⟨-, hruns⟩
    obtain ⟨m, hnm, hnot⟩ := hfair.callbacks σ c f cb n hruns
    exact ⟨m, hnm, fun h => hnot h.2⟩
  · rintro n ⟨h, hruns⟩
    have hstays := waits_next hfair hσ h hruns.ne_finished
    have hobeys (result : CallbackResult) (he : x.label n = .callbackEnd σ result) :
        result = .cancelled := hfair.obeys n τ pc σ result h.body hσ he
    rcases hruns.step (sound_of_execution x n) h.idle hobeys (x.next n) with hruns' | hfinished
    · exact .inl ⟨hstays, hruns'⟩
    · exact .inr ⟨hstays, over_next hruns.lt hfinished⟩

/-- The `CancelledError` is delivered to the task that a `stop()` awaits. -/
theorem doomed_leadsTo (hfair : FairToStops x) (hσ : σ ∈ pc.task) :
    x.LeadsTo (fun w => StopsAt τ pc w ∧ Doomed σ w)
      (fun w => (∃ c f cb, StopsAt τ pc w ∧ Runs σ c f cb w) ∨ (StopsAt τ pc w ∧ Over σ w)) := by
  have hcancel (n : ℕ) (h : StopsAt τ pc (x.state n)) (hdoomed : Doomed σ (x.state n))
      (he : x.label n = .deliverCancel σ) :
      (∃ c f cb, StopsAt τ pc (x.state (n + 1)) ∧ Runs σ c f cb (x.state (n + 1))) ∨
        (StopsAt τ pc (x.state (n + 1)) ∧ Over σ (x.state (n + 1))) := by
    have hstays := waits_next hfair hσ h hdoomed.ne_finished
    have hnext := x.next n
    rw [he] at hnext
    rcases hdoomed.cancel h.idle hnext with ⟨c, f, cb, hruns⟩ | hfinished
    · exact .inl ⟨c, f, cb, hstays, hruns⟩
    · exact .inr ⟨hstays, over_next hdoomed.lt hfinished⟩
  apply (hfair.cancels σ).leadsTo
  · rintro n ⟨h, hdoomed⟩
    by_cases he : x.label n = .deliverCancel σ
    · exact .inr (hcancel n h hdoomed he)
    · exact .inl ⟨waits_next hfair hσ h hdoomed.ne_finished,
        hdoomed.stays (sound_of_execution x n) he (x.next n)⟩
  · rintro n ⟨h, hdoomed⟩
    exact ⟨.deliverCancel σ, rfl, hdoomed.enabled⟩
  · rintro n ⟨h, hdoomed⟩ he
    exact hcancel n h hdoomed he

/-- The task that a `stop()` awaits ends, as its cancellation is delivered and its callbacks end. -/
theorem awaited_leadsTo (hfair : FairToStops x) (hσ : σ ∈ pc.task) :
    x.LeadsTo (StopsAt τ pc) (fun w => StopsAt τ pc w ∧ Over σ w) := by
  have hcallback : x.LeadsTo (fun w => ∃ c f cb, StopsAt τ pc w ∧ Runs σ c f cb w)
      (fun w => StopsAt τ pc w ∧ Over σ w) :=
    .of_exists (fun c => .of_exists (fun f => .of_exists (runs_leadsTo hfair hσ c f)))
  intro n h
  rcases h.unwinds σ hσ with hdoomed | ⟨c, f, cb, hruns⟩ | hover
  · exact (doomed_leadsTo hfair hσ).trans (hcallback.or .refl) n ⟨h, hdoomed⟩
  · exact runs_leadsTo hfair hσ c f cb n ⟨h, hruns⟩
  · exact ⟨n, le_rfl, h, hover⟩

/-- A suspension point of a `stop()` that can be left leads to what its step does. -/
theorem stopsAt_leadsTo {P Q : World → Prop} (hfair : FairToStops x)
    (hstops : ∀ w, P w → StopsAt τ pc w)
    (hkeeps : ∀ n, P (x.state n) → StopsAt τ pc (x.state (n + 1)) → P (x.state (n + 1)))
    (henabled : ∀ w, P w →
      Enabled (step cfg) {e | e = .stopStep τ ∨ e = .closeDone τ} w)
    (hstep : ∀ n, P (x.state n) → x.label n = .stopStep τ ∨ x.label n = .closeDone τ →
      Q (x.state (n + 1))) : x.LeadsTo P Q := by
  apply (hfair.stops τ).leadsTo
  · intro n hP
    have h := hstops _ hP
    have hsound := sound_of_execution x n
    by_cases hact : Acts (x.state n) (x.label n) τ
    · exact .inr (hstep n hP (event_of_stop h.body hsound hact (x.next n)))
    · refine .inl (hkeeps n hP ?_)
      apply h.stays hsound (remembers_of_execution x n) (hfair.apart n τ pc h.body) _ hact
        (x.next n)
      exact fun σ hσ result he => hfair.obeys n τ pc σ result h.body hσ he
  · exact fun n hP => henabled _ hP
  · exact hstep

/-- A `stop()` whose task has ended goes on. -/
theorem over_leadsTo {Q : World → Prop} (hfair : FairToStops x) (hσ : σ ∈ pc.task)
    (hstep : ∀ n, StopsAt τ pc (x.state n) →
      step cfg (x.state n) (.stopStep τ) = some (x.state (n + 1)) → Q (x.state (n + 1))) :
    x.LeadsTo (fun w => StopsAt τ pc w ∧ Over σ w) (fun w => Q w ∧ Over σ w) := by
  apply stopsAt_leadsTo hfair (fun _ h => h.1)
  · rintro n ⟨-, hover⟩ hstays
    exact ⟨hstays, hover.step (sound_of_execution x n) (x.next n)⟩
  · rintro w ⟨h, hover⟩
    have hdead : w.alive σ = false := by simp [World.alive, hover.body]
    refine ⟨.stopStep τ, .inl rfl, ?_⟩
    cases pc with
    | closing c => cases hσ
    | awaitingSupervise | awaitingHeartbeat =>
      obtain rfl := Option.some.inj hσ
      simp [step, World.stopStep, h.body, hdead]
  · rintro n ⟨h, hover⟩ (he | he)
    · exact ⟨hstep n h (he ▸ x.next n), hover.step (sound_of_execution x n) (x.next n)⟩
    · have hnext := x.next n
      cases pc with
      | closing c => cases hσ
      | awaitingSupervise | awaitingHeartbeat =>
        simp [he, step, World.closeDoneStep, h.body] at hnext

/-- The closing of the connection ends, and with it the `stop()`. -/
theorem atClose_leadsTo (hfair : FairToStops x) (τ : ℕ) :
    x.LeadsTo (AtClose τ) (StopReturned τ) := by
  refine LeadsTo.or (LeadsTo.of_exists (fun c => ?_)) .refl
  apply stopsAt_leadsTo hfair (fun _ h => h)
  · exact fun _ _ hstays => hstays
  · intro w h
    refine ⟨.closeDone τ, .inr rfl, ?_⟩
    simp [step, World.closeDoneStep, h.body, h.free]
  · rintro n h (he | he)
    · have hnext := x.next n
      simp [he, step, World.stopStep, h.body] at hnext
    · exact h.close_step (he ▸ x.next n)

/-- Tasks that have ended stay so, in every later state. -/
theorem over_stable (x : Execution (step cfg) World.init) (task : Option ℕ) (n : ℕ)
    (h : ∀ σ ∈ task, Over σ (x.state n)) : ∀ σ ∈ task, Over σ (x.state (n + 1)) :=
  fun σ hσ => (h σ hσ).step (sound_of_execution x n) (x.next n)

/-- A `stop()` that has got to the heartbeat task returns, and the heartbeat task has ended. -/
theorem atHeartbeat_leadsTo (hfair : FairToStops x) (τ : ℕ) (heartbeat : Option ℕ) :
    x.LeadsTo (AtHeartbeat τ heartbeat)
      (fun w => StopReturned τ w ∧ ∀ η ∈ heartbeat, Over η w) := by
  have hcloses : x.LeadsTo (fun w => AtClose τ w ∧ ∀ η ∈ heartbeat, Over η w)
      (fun w => StopReturned τ w ∧ ∀ η ∈ heartbeat, Over η w) :=
    (atClose_leadsTo hfair τ).and_stable (over_stable x heartbeat)
  rintro n (⟨η, rfl, h⟩ | h)
  · have hgoes : x.LeadsTo (StopsAt τ (.awaitingHeartbeat η))
        (fun w => AtClose τ w ∧ Over η w) := by
      apply (awaited_leadsTo hfair rfl).trans
      exact over_leadsTo hfair rfl (fun n h hstep => h.heartbeat_step hstep)
    obtain ⟨m, hnm, hclose, hover⟩ := hgoes n h
    obtain ⟨l, hml, hreturned⟩ := hcloses m ⟨hclose, fun η' hη' => Option.some.inj hη' ▸ hover⟩
    exact ⟨l, hnm.trans hml, hreturned⟩
  · exact hcloses n h

/-- A `stop()` that awaits the supervise task returns, and both tasks have ended. -/
theorem awaitingSupervise_leadsTo (hfair : FairToStops x) (τ σ : ℕ) (heartbeat : Option ℕ) :
    x.LeadsTo (StopsAt τ (.awaitingSupervise σ heartbeat))
      (fun w => (StopReturned τ w ∧ ∀ η ∈ heartbeat, Over η w) ∧ Over σ w) := by
  have hgoes : x.LeadsTo (StopsAt τ (.awaitingSupervise σ heartbeat))
      (fun w => AtHeartbeat τ heartbeat w ∧ Over σ w) := by
    apply (awaited_leadsTo hfair rfl).trans
    apply over_leadsTo hfair rfl
    intro n h hstep
    exact h.supervise_step (sound_of_execution x n) (remembers_of_execution x n) hstep
  apply hgoes.trans
  apply (atHeartbeat_leadsTo hfair τ heartbeat).and_stable
  exact fun n hover => hover.step (sound_of_execution x n) (x.next n)

/-- In every infinite execution in which cancellations are delivered, the steps of a `stop()` are
not put off for ever, callbacks end and let a `CancelledError` through, and no `start()` is called
while a `stop()` is under way, every `stop()` returns: then the client does not run, it holds no
connection and no pending request, and the supervise and the heartbeat task that it remembered
have ended. -/
theorem stops_end (hfair : FairToStops x) {n : ℕ} (hlabel : x.label n = .stop)
    (hrun : (x.state n).running = true) :
    ∃ m, n < m ∧ StopReturned (x.state n).tasks.length (x.state m) ∧
      (∀ σ ∈ (x.state n).superviseTask, (x.state m).body σ = .finished) ∧
        ∀ η ∈ (x.state n).heartbeatTask, (x.state m).body η = .finished := by
  set w := x.state n with hw
  have hsound := sound_of_execution x n
  have hremembers := remembers_of_execution x n
  have hnext : x.state (n + 1) = w.beginStop := by
    have hstep := x.next n
    rw [hlabel] at hstep
    simp only [step, ← hw, hrun, if_true, Option.some.injEq] at hstep
    exact hstep.symm
  have ended {σ : ℕ} (hlt : σ < w.tasks.length) (hb : w.body σ = .finished) :
      Over σ (x.state (n + 1)) := (Over.of_body hlt hb).step hsound (x.next n)
  rcases beginStop_goes hremembers.supervise hremembers.heartbeat with
    ⟨σ, hσ, hstops⟩ | ⟨hsupervise, hgoes⟩
  · rw [← hnext] at hstops
    obtain ⟨m, hnm, ⟨hreturned, hheartbeat⟩, hover⟩ :=
      awaitingSupervise_leadsTo hfair _ σ _ (n + 1) hstops
    refine ⟨m, hnm, hreturned, ?_, fun η hη => (hheartbeat η hη).body⟩
    rintro σ' hσ'
    obtain rfl := Option.some.inj (hσ.symm.trans hσ')
    exact hover.body
  · have hheartbeat : AtHeartbeat w.tasks.length w.heartbeatTask (x.state (n + 1)) := by
      refine hgoes.imp ?_ ?_
      · rw [hnext]
        exact id
      · rintro ⟨hclose, hends⟩
        refine ⟨hnext ▸ hclose, ?_⟩
        exact fun η hη => ended (hremembers.heartbeat η hη).lt (hends η hη)
    have hover : ∀ σ ∈ w.superviseTask, Over σ (x.state (n + 1)) :=
      fun σ hσ => ended (hremembers.supervise σ hσ).lt (hsupervise σ hσ)
    have hreturns := (atHeartbeat_leadsTo hfair w.tasks.length w.heartbeatTask).and_stable
      (R := fun v => ∀ σ ∈ w.superviseTask, Over σ v) (over_stable x w.superviseTask)
    obtain ⟨m, hnm, ⟨hreturned, hends⟩, hover'⟩ := hreturns (n + 1) ⟨hheartbeat, hover⟩
    exact ⟨m, hnm, hreturned, fun σ hσ => (hover' σ hσ).body, fun η hη => (hends η hη).body⟩

/-- A client all of whose tasks have ended may idle. -/
theorem fairToStops_of_idle {n : ℕ} (hx : x.Continues n (w.idle cfg))
    (hended : ∀ t ∈ w.tasks, t.body = .finished ∧ t.cancelled = false)
    (hobeys : ∀ i < n, ∀ σ result, x.label i = .callbackEnd σ result → result = .cancelled)
    (hstarts : ∀ i < n, x.label i = .start → i = 0) : FairToStops x := by
  have hticks (i : ℕ) (hi : n ≤ i) : x.label i = .tick 1 := by
    obtain ⟨m, rfl⟩ := Nat.exists_eq_add_of_le hi
    exact hx.label m
  have hbody (m τ : ℕ) : ((w.idle cfg).state m).body τ = .finished :=
    World.body_of_ended (fun t ht => (hended t ht).1) τ
  have hfree (m τ : ℕ) : ((w.idle cfg).state m).isCancelled τ = false :=
    World.isCancelled_of_quiet (fun t ht => (hended t ht).2) τ
  refine ⟨?_, ?_, ?_, ?_, ?_⟩
  · intro σ
    apply hx.weaklyFair
    apply WeaklyFair.of_disabled
    rintro m e rfl
    simp [step, hfree]
  · intro τ
    apply hx.weaklyFair
    apply WeaklyFair.of_disabled
    rintro m e (rfl | rfl)
    · simp [step, World.stopStep, hbody]
    · simp [step, World.closeDoneStep, hbody]
  · intro σ c f cb
    apply hx.leadsTo_not
    intro m hruns
    exact hruns.ne_finished (hbody m σ)
  · intro i τ pc σ result _ _ he
    rcases Nat.lt_or_ge i n with hi | hi
    · exact hobeys i hi σ result he
    · rw [hticks i hi] at he
      cases he
  · intro i τ pc hb he
    rcases Nat.lt_or_ge i n with hi | hi
    · obtain rfl := hstarts i hi he
      simp [x.init, World.init, World.body] at hb
    · rw [hticks i hi] at he
      cases he

end

/-- A handler of a client with a heartbeat runs. -/
def handlingEvents : List Event :=
  startEvents ++ [.run 2, .frame 0 ⟨.json (.obj []), none⟩, .recv 1]

/-- It is interrupted by a `stop()`, which then awaits both tasks and closes the connection. -/
def interruptEvents : List Event :=
  [.stop, .deliverCancel 1, .callbackEnd 1 .cancelled, .stopStep 3, .deliverCancel 2, .stopStep 3,
    .closeDone 3]

/-- A `stop()` interrupts a handler of the supervise task, which lets the `CancelledError` through,
and returns. -/
theorem stops_end_interrupted :
    ∃ (x : Execution (step (.sample .kraken (some 30))) World.init) (n m : ℕ), FairToStops x ∧
      x.label n = .stop ∧ (x.state n).running = true ∧ (x.state n).superviseTask = some 1 ∧
      n < m ∧ StopReturned 3 (x.state m) ∧ (x.state m).body 1 = .finished := by
  obtain ⟨v, hfirst, hrunning, htask, hlength⟩ :
      ∃ v, Run (step (.sample .kraken (some 30))) always World.init handlingEvents v ∧
        v.running = true ∧ v.superviseTask = some 1 ∧ v.tasks.length = 3 :=
    Run.exists_of_exec (by decide +kernel)
  obtain ⟨w, hall, hended⟩ :
      ∃ w, Run (step (.sample .kraken (some 30))) always World.init
          (handlingEvents ++ interruptEvents) w ∧
        ∀ t ∈ w.tasks, t.body = .finished ∧ t.cancelled = false :=
    Run.exists_of_exec (by decide +kernel)
  obtain ⟨v', hfirst', hrest⟩ := hall.of_append
  obtain rfl := hfirst.unique hfirst'
  obtain ⟨y, hy, hafter⟩ := Execution.exists_labels_continues hrest (w.idle _)
  obtain ⟨x, hx, hbefore⟩ := Execution.exists_labels_continues hfirst y
  have hlabels (i : ℕ) (hi : i < handlingEvents.length + interruptEvents.length) :
      handlingEvents[i]? = some (x.label i) ∨ x.label i ∈ interruptEvents := by
    rcases Nat.lt_or_ge i handlingEvents.length with hlt | hge
    · exact .inl (hbefore i hlt)
    · obtain ⟨m, rfl⟩ := Nat.exists_eq_add_of_le hge
      rw [hx.label m]
      exact .inr (List.mem_of_getElem? (hafter m (by omega)))
  have hfair : FairToStops x := by
    apply fairToStops_of_idle (hx.trans hy) hended
    · intro i hi σ result he
      rcases hlabels i hi with hlabel | hlabel
      · have hmem := List.mem_of_getElem? hlabel
        simp [he, handlingEvents, startEvents, openEvents] at hmem
      · rw [he] at hlabel
        simp only [interruptEvents, List.mem_cons, Event.callbackEnd.injEq, reduceCtorEq,
          List.not_mem_nil, or_false, false_or] at hlabel
        exact hlabel.2
    · intro i hi he
      rcases hlabels i hi with hlabel | hlabel
      · rw [he] at hlabel
        cases i with
        | zero => rfl
        | succ i =>
          have hmem : Event.start ∈ handlingEvents.tail :=
            List.mem_of_getElem? (i := i) (by simpa using hlabel)
          simp [handlingEvents, startEvents, openEvents] at hmem
      · simp [he, interruptEvents] at hlabel
  have hstate : x.state handlingEvents.length = v := (hx.state 0).trans y.init
  have hlabel : x.label handlingEvents.length = .stop := by
    have hfirst := hafter 0 (by decide)
    rw [← hx.label 0] at hfirst
    exact (Option.some.inj hfirst).symm
  have hrun : (x.state handlingEvents.length).running = true := by rw [hstate, hrunning]
  have hσ : (x.state handlingEvents.length).superviseTask = some 1 := by rw [hstate, htask]
  obtain ⟨m, hnm, hreturned, hends, -⟩ := stops_end hfair hlabel hrun
  rw [hstate, hlength] at hreturned
  exact ⟨x, _, m, hfair, hlabel, hrun, hσ, hnm, hreturned, hends 1 hσ⟩

end ProxyClient.Websocket
