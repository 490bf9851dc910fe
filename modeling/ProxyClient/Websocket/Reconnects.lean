import ProxyClient.Websocket.Calm
import ProxyClient.Websocket.Progress
import Mathlib.Data.Prod.Lex

/-!
# The supervise task never gets stuck

Between two reads the supervise task serves callbacks, sleeps, connects and replays. Each of
these ends if time goes on and none is neglected for ever, so that the task comes back to `recv`
or begins another reconnect. A socket that has closed delivers only the frames it still holds,
and so the task that reads it begins a reconnect in the end.
-/

namespace ProxyClient.Websocket

open Transition Transition.Execution

variable {cfg : Config} {w w' : World} {e : Event} {σ N a c : ℕ} {pc : SuperviseAt} {f : Inbound}
  {cb : Callback}

/-! ## Where the task stands -/

/-- A supervise task that is not to be cancelled is suspended at a point, and at least `N`
connections have been built. -/
structure Suspended (N σ : ℕ) (pc : SuperviseAt) (w : World) : Prop where
  built : N ≤ w.conns.length
  free : w.isCancelled σ = false
  body : ∃ a, w.body σ = .supervise a pc

/-- A task has ended, or it is to be cancelled. -/
def Retires (σ : ℕ) (w : World) : Prop := w.body σ = .finished ∨ w.isCancelled σ = true

/-- A supervise task is about to connect a connection that is not one of the first `N`. -/
def Tries (N σ : ℕ) (w : World) : Prop := ∃ c, N ≤ c ∧ Suspended N σ (.opening c .connecting) w

/-- `_pump` has returned: the task sleeps, begins a reconnect or ends. -/
def Returned (N σ : ℕ) (w : World) : Prop :=
  (∃ wake, Suspended N σ (.backingOff wake) w) ∨ Tries N σ w ∨ Retires σ w

/-- The task reads a connection, or its `_pump` has returned. -/
def Pumping (N σ c : ℕ) (w : World) : Prop := Suspended N σ (.reading c) w ∨ Returned N σ w

/-- The task is in a replay, or it has got to `_pump`. -/
def Replaying (N σ : ℕ) (entries : List Entry) (w : World) : Prop :=
  (∃ k, ∃ entry rest, entries = entry :: rest ∧ Suspended N σ (.replaying k rest) w) ∨
    (∃ wake, ∃ entry rest, entries = entry :: rest ∧ Suspended N σ (.replayGap wake rest) w) ∨
    ∃ c, Pumping N σ c w

/-- A suspended task is one of the tasks that were created. -/
theorem Suspended.lt (h : Suspended N σ pc w) : σ < w.tasks.length := by
  obtain ⟨a, hb⟩ := h.body
  exact World.lt_of_body_ne (by simp [hb])

/-- A task that retires is done with `_pump`. -/
theorem Returned.of_retires (h : Retires σ w) : Returned N σ w := .inr (.inr h)

/-- It is done with reading in particular. -/
theorem Pumping.of_retires (h : Retires σ w) : Pumping N σ c w := .inr (.of_retires h)

/-- A supervise task is suspended, unless it is to be cancelled. -/
theorem suspended_or_retires (hbuilt : N ≤ w.conns.length) (hb : w.body σ = .supervise a pc) :
    Suspended N σ pc w ∨ Retires σ w := by
  cases hfree : w.isCancelled σ with
  | false => exact .inl ⟨hbuilt, hfree, a, hb⟩
  | true => exact .inr (.inr hfree)

/-- A task that goes on is suspended at its new point, and no longer to be cancelled. -/
theorem suspended_setBody (hlt : σ < w.tasks.length) (hbuilt : N ≤ w.conns.length) :
    Suspended N σ pc (w.setBody σ (.supervise a pc)) where
  built := hbuilt
  free := by simp [World.isCancelled, hlt]
  body := ⟨a, World.body_setBody_self _ hlt⟩

/-- A task that ends retires. -/
theorem retires_finish (hlt : σ < w.tasks.length) : Retires σ (w.finish σ) :=
  .inl (World.body_setBody_self _ hlt)

/-! ## Where its functions take it -/

/-- After `_pump` the policy decides between a sleep, a reconnect at once and the end. -/
theorem returned_pumpReturned (hlt : σ < w.tasks.length) (hbuilt : N ≤ w.conns.length)
    (lastError : Option Exc) : Returned N σ (w.pumpReturned cfg σ a lastError) := by
  unfold World.pumpReturned
  split
  · simp only
    split
    · exact .of_retires (.inl (World.body_setBody_self _ (by exact hlt)))
    · exact .of_retires (retires_finish (by exact hlt))
    · split
      · exact .inl ⟨_, suspended_setBody (by exact hlt) hbuilt⟩
      · refine .inr (.inl ⟨w.conns.length, hbuilt, ?_⟩)
        exact suspended_setBody (by exact hlt) (by simp; omega)
  · exact .of_retires (retires_finish hlt)

/-- Going back to `recv`, the task reads on, unless its connection has been given up. -/
theorem pumping_read (hlt : σ < w.tasks.length) (hbuilt : N ≤ w.conns.length) :
    Pumping N σ c (w.read cfg σ a c) := by
  unfold World.read
  split
  · exact .inr (returned_pumpReturned hlt hbuilt _)
  · exact .inl (suspended_setBody hlt hbuilt)

/-- At the head of the pump it reads the connection that `_conn` holds, if there is one. -/
theorem pumping_beginPump (hlt : σ < w.tasks.length) (hbuilt : N ≤ w.conns.length) :
    ∃ c, Pumping N σ c (w.beginPump cfg σ a) := by
  unfold World.beginPump
  split
  · split
    · exact ⟨0, .inr (returned_pumpReturned hlt hbuilt _)⟩
    · split
      · exact ⟨_, pumping_read hlt hbuilt⟩
      · exact ⟨0, .inr (returned_pumpReturned hlt hbuilt _)⟩
  · exact ⟨0, .of_retires (retires_finish hlt)⟩

/-- The replay sends its next entry, skips over one that cannot be sent, or is through. -/
theorem replaying_replayNext (hlt : σ < w.tasks.length) (hbuilt : N ≤ w.conns.length)
    (entries : List Entry) : Replaying N σ entries (w.replayNext cfg σ a entries) := by
  cases entries with
  | nil => exact .inr (.inr (pumping_beginPump hlt hbuilt))
  | cons entry rest =>
    obtain ⟨channel, params⟩ := entry
    unfold World.replayNext
    rcases perform_cases cfg w (.replay σ) (.subscribe channel (some params) false) with
      ⟨err, -, hperform⟩ | ⟨call, -, -, -, -, hperform⟩ | ⟨call, c, -, -, -, -, hperform⟩
    · simp only [hperform]
      exact .inr (.inl ⟨_, _, rest, rfl, suspended_setBody hlt hbuilt⟩)
    · simp only [hperform]
      exact .inr (.inl ⟨_, _, rest, rfl, suspended_setBody hlt hbuilt⟩)
    · simp only [hperform]
      refine .inl ⟨_, _, rest, rfl, suspended_setBody (by exact hlt) ?_⟩
      simpa [World.launched] using hbuilt

/-! ## Callbacks -/

/-- A callback of the dispatch of a frame is running, or a call that it awaits. -/
def Runs (σ c : ℕ) (f : Inbound) (cb : Callback) (w : World) : Prop :=
  ∃ a, w.body σ = .supervise a (.inCallback c f cb) ∨
    ∃ k, w.body σ = .supervise a (.inCallbackCall c f cb k)

/-- A supervise task that is not to be cancelled runs a callback. -/
structure Busy (N σ c : ℕ) (f : Inbound) (cb : Callback) (w : World) : Prop where
  built : N ≤ w.conns.length
  free : w.isCancelled σ = false
  runs : Runs σ c f cb w

/-- The callbacks of a dispatch that can come right after one of them. -/
inductive Callback.Next : Callback → Callback → Prop
  | first {h : ℕ} {rest : List ℕ} {wildcard : Bool} : Next (.handler h rest wildcard) .onMessage
  | next {h h' : ℕ} {rest : List ℕ} {wildcard : Bool} :
      Next (.handler h' rest wildcard) (.handler h (h' :: rest) wildcard)
  | wildcard {h h' : ℕ} {rest : List ℕ} : Next (.handler h' rest false) (.handler h [] true)

/-- How much of a dispatch is left, at a callback. -/
def Callback.rank : Callback → ℕ ×ₗ ℕ
  | .onMessage => toLex (2, 0)
  | .handler _ rest true => toLex (1, rest.length)
  | .handler _ rest false => toLex (0, rest.length)

/-- Every dispatch runs out of callbacks, as each callback leaves fewer of them. -/
theorem Callback.wellFounded_next : WellFounded Callback.Next := by
  refine Subrelation.wf ?_ (InvImage.wf Callback.rank wellFounded_lt)
  rintro cb' cb hnext
  cases hnext with
  | @first h rest wildcard => cases wildcard <;> simp [InvImage, rank, Prod.Lex.lt_iff]
  | @next h h' rest wildcard => cases wildcard <;> simp [InvImage, rank, Prod.Lex.lt_iff]
  | wildcard => simp [InvImage, rank, Prod.Lex.lt_iff]

/-- The task is in the callback after `cb`, or it has got back to `_pump`. -/
def Served (N σ c : ℕ) (f : Inbound) (cb : Callback) (w : World) : Prop :=
  Pumping N σ c w ∨ ∃ cb', Callback.Next cb' cb ∧ Busy N σ c f cb' w

/-- A callback that is called runs. -/
theorem busy_setBody (hlt : σ < w.tasks.length) (hbuilt : N ≤ w.conns.length) :
    Busy N σ c f cb (w.setBody σ (.supervise a (.inCallback c f cb))) where
  built := hbuilt
  free := by simp [World.isCancelled, hlt]
  runs := ⟨a, .inl (World.body_setBody_self _ hlt)⟩

/-- After the handlers of a list come the others of the list, then those of `'*'`, then the pump. -/
theorem served_runHandlers {handlers : List ℕ} {wildcard : Bool} (hlt : σ < w.tasks.length)
    (hbuilt : N ≤ w.conns.length)
    (hnext : ∀ h rest, handlers = h :: rest → Callback.Next (.handler h rest wildcard) cb)
    (hwildcard : handlers = [] → wildcard = true →
      ∀ h rest, Callback.Next (.handler h rest false) cb) :
    Served N σ c f cb (w.runHandlers cfg σ a c f handlers wildcard) := by
  unfold World.runHandlers
  split
  · rename_i h rest
    exact .inr ⟨_, hnext h rest rfl, busy_setBody hlt hbuilt⟩
  · split
    · rename_i htrue
      split
      · exact .inr ⟨_, hwildcard rfl htrue _ _, busy_setBody hlt hbuilt⟩
      · exact .inl (pumping_read hlt hbuilt)
    · exact .inl (pumping_read hlt hbuilt)

/-- A frame that is delivered goes to the first of its handlers, or back to the pump. -/
theorem served_deliver (hlt : σ < w.tasks.length) (hbuilt : N ≤ w.conns.length) :
    Served N σ c f .onMessage (w.deliver cfg σ a c f) := by
  unfold World.deliver
  simp only
  split
  · exact .inl (pumping_read hlt hbuilt)
  · split
    · exact .inl (.inr (returned_pumpReturned hlt hbuilt _))
    · exact served_runHandlers hlt hbuilt (fun _ _ _ => .first) (fun _ _ _ _ => .first)

/-- A dispatch ends in the first handler, or in the pump. -/
theorem served_dispatch (hlt : σ < w.tasks.length) (hbuilt : N ≤ w.conns.length) :
    Served N σ c f .onMessage (w.dispatch cfg σ a c f) := by
  unfold World.dispatch
  split
  · simp only
    split
    · exact .inl (.inr (returned_pumpReturned (by exact hlt) (by simpa using hbuilt) _))
    · split
      · exact .inl (pumping_read (by exact hlt) (by simpa using hbuilt))
      · exact served_deliver (by exact hlt) (by simpa using hbuilt)
  · exact .inl (.inr (returned_pumpReturned hlt hbuilt _))

/-! ## Steps of the task -/

/-- A step leaves the task where it is, unless the task takes it. -/
theorem Suspended.stays (h : Suspended N σ pc w) (hsound : Sound cfg w)
    (hstep : step cfg w e = some w') (hact : ¬Acts w e σ) :
    Suspended N σ pc w' ∨ Retires σ w' := by
  obtain ⟨a, hb⟩ := h.body
  have hmoves := step_moves hsound.linked hstep
  have hb' : w'.body σ = .supervise a pc := (hmoves.body_of_not_acts hact (by simp [hb])).trans hb
  exact suspended_or_retires (h.built.trans hmoves.conns_length) hb'

/-- A task that awaits a call goes on with that call only. -/
theorem concludes_of_acts {owner : Owner} {k : ℕ} (hsound : Sound cfg w)
    (hfree : w.isCancelled σ = false) (hawaits : (w.body σ).awaits σ = some (owner, k))
    (hact : Acts w e σ) (hstep : step cfg w e = some w') :
    (∃ rpc, w' = { w with rpc := rpc }) ∨
      ∃ call outcome, w.rpc.calls[k]? = some call ∧ call.owner = owner ∧
        w' = w.conclude cfg k outcome := by
  have hlt : σ < w.tasks.length := World.lt_of_body_ne (by
    intro hb
    rw [hb] at hawaits
    cases hawaits)
  cases hact with
  | stop => omega
  | task htask =>
    rcases Body.awaits_cases hawaits with ⟨-, a, c, f, cb, hb⟩ | ⟨-, a, rest, hb⟩ |
      ⟨-, conn, hb⟩ <;>
      · cases e <;> cases htask
        all_goals
          simp [step, hfree, World.openStep, World.opening?, World.runStep, World.recvStep,
            World.socketEndStep, World.callbackCallStep, World.callbackEndStep, World.wakeStep,
            World.closeDoneStep, World.stopStep, hb] at hstep
  | @call e k' call _ hcallNo hcall htask =>
    have hcallStep : w.callStep cfg k' e = some w' := by
      cases e <;> cases hcallNo <;> exact hstep
    obtain ⟨call', hcall', hopen, hcases⟩ := callStep_cases hcallNo hcallStep
    obtain rfl := Option.some.inj (hcall.symm.trans hcall')
    have hsame := (hsound.linked.awaited hcall hopen htask).symm.trans hawaits
    obtain ⟨howner, rfl⟩ := Prod.mk.inj (Option.some.inj hsame)
    rcases hcases with ⟨-, deadline, rfl⟩ | ⟨outcome, -, rfl⟩
    · exact .inl ⟨_, rfl⟩
    · exact .inr ⟨call, outcome, hcall, howner, rfl⟩

/-- In its first step the task gets to the pump. -/
theorem Suspended.ready_step (h : Suspended N σ .ready w) (htask : e.task = some σ)
    (hstep : step cfg w e = some w') : ∃ c, Pumping N σ c w' := by
  obtain ⟨a, hb⟩ := h.body
  rw [step_eq_of_ready hb h.free htask hstep]
  exact pumping_beginPump h.lt h.built

/-- When it wakes, a task that backs off tries to connect, or ends with a client that was
stopped. -/
theorem Suspended.backingOff_step {wake : ℚ} (h : Suspended N σ (.backingOff wake) w)
    (htask : e.task = some σ) (hstep : step cfg w e = some w') : Tries N σ w' ∨ Retires σ w' := by
  obtain ⟨a, hb⟩ := h.body
  cases e <;> cases htask
  case wake =>
    simp only [step, h.free, World.wakeStep, hb, Bool.false_eq_true, if_false] at hstep
    split at hstep
    · split at hstep <;> cases hstep
      · refine .inl ⟨w.conns.length, h.built, suspended_setBody (by exact h.lt) ?_⟩
        exact h.built.trans (by simp)
      · exact .inr (retires_finish h.lt)
    · cases hstep
  all_goals
    simp [step, h.free, World.openStep, World.opening?, World.runStep, World.recvStep,
      World.socketEndStep, World.callbackCallStep, World.callbackEndStep, World.closeDoneStep,
      World.stopStep, hb] at hstep

/-- After the gap between two entries the replay goes on with those that are left. -/
theorem Suspended.replayGap_step {wake : ℚ} {entries : List Entry}
    (h : Suspended N σ (.replayGap wake entries) w) (htask : e.task = some σ)
    (hstep : step cfg w e = some w') : Replaying N σ entries w' := by
  obtain ⟨a, hb⟩ := h.body
  cases e <;> cases htask
  case wake =>
    simp only [step, h.free, World.wakeStep, hb, Bool.false_eq_true, if_false] at hstep
    split at hstep <;> cases hstep
    exact replaying_replayNext h.lt h.built entries
  all_goals
    simp [step, h.free, World.openStep, World.opening?, World.runStep, World.recvStep,
      World.socketEndStep, World.callbackCallStep, World.callbackEndStep, World.closeDoneStep,
      World.stopStep, hb] at hstep

/-- The `subscribe()` of a replay ends in a step, or the task stays in it. -/
theorem Suspended.replaying_step {k : ℕ} {rest : List Entry}
    (h : Suspended N σ (.replaying k rest) w) (hsound : Sound cfg w) (hact : Acts w e σ)
    (hstep : step cfg w e = some w') :
    Suspended N σ (.replaying k rest) w' ∨ (∃ wake, Suspended N σ (.replayGap wake rest) w') ∨
      Retires σ w' := by
  obtain ⟨a, hb⟩ := h.body
  have hawaits : (w.body σ).awaits σ = some (.replay σ, k) := by simp [hb, Body.awaits]
  rcases concludes_of_acts hsound h.free hawaits hact hstep with
    ⟨rpc, rfl⟩ | ⟨call, outcome, hcall, howner, rfl⟩
  · exact .inl ⟨h.built, h.free, h.body⟩
  · have hlt : σ < (w.endCall cfg k outcome).tasks.length := by
      rw [tasks_endCall]
      exact h.lt
    have hbuilt : N ≤ (w.endCall cfg k outcome).conns.length := by
      rw [conns_endCall]
      exact h.built
    simp only [World.conclude, hcall, howner, World.resumeOwner, body_endCall, hb, if_true]
    split
    · exact .inr (.inr (retires_finish hlt))
    · exact .inr (.inl ⟨_, suspended_setBody hlt hbuilt⟩)

/-- A reconnect that failed goes on with nothing to replay. -/
theorem replaying_openFailed (hb : w.body σ = .supervise a pc) (hbuilt : N ≤ w.conns.length) :
    Replaying N σ [] (w.openFailed cfg σ) := by
  have hlt : σ < w.tasks.length := World.lt_of_body_ne (by simp [hb])
  have hfailed : w.openFailed cfg σ = w.beginPump cfg σ a := by simp [World.openFailed, hb]
  rw [hfailed]
  exact .inr (.inr (pumping_beginPump hlt hbuilt))

/-- A reconnect that succeeded replays the registry. -/
theorem replaying_opened (hb : w.body σ = .supervise a pc) (hbuilt : N ≤ w.conns.length) :
    Replaying N σ w.subscriptions (w.opened cfg σ c) := by
  have hlt : σ < w.tasks.length := World.lt_of_body_ne (by simp [hb])
  unfold World.opened
  simp only
  split
  · exact replaying_replayNext (by exact hlt) (by simpa using hbuilt) _
  · rename_i hother
    exact absurd hb (hother a pc)

/-- A task inside `open()` gets to the next stage of it. -/
theorem suspended_setStage {stage stage' : OpenStage}
    (hb : w.body σ = .supervise a (.opening c stage)) (hbuilt : N ≤ w.conns.length) :
    Suspended N σ (.opening c stage') (w.setStage σ stage') := by
  have hlt : σ < w.tasks.length := World.lt_of_body_ne (by simp [hb])
  simp only [World.setStage, hb]
  exact suspended_setBody hlt hbuilt

/-- The socket connects and the handshake is sent, or `connect` raises. -/
theorem Suspended.connecting_step (h : Suspended N σ (.opening c .connecting) w)
    (htask : e.task = some σ) (hstep : step cfg w e = some w') :
    Suspended N σ (.opening c .sendingAuth) w' ∨ Replaying N σ [] w' := by
  obtain ⟨a, hb⟩ := h.body
  have hopening : w.opening? σ = some (c, .connecting) := by simp [World.opening?, hb]
  cases e <;> cases htask
  case connected =>
    simp only [step, h.free, World.openStep, hopening, Bool.false_eq_true, if_false,
      Option.some.injEq] at hstep
    rw [← hstep]
    exact .inl (suspended_setStage (by exact hb) (by simpa using h.built))
  case connectFailed =>
    simp only [step, h.free, World.openStep, hopening, Bool.false_eq_true, if_false,
      Option.some.injEq] at hstep
    rw [← hstep]
    exact .inr (replaying_openFailed hb h.built)
  all_goals
    simp [step, h.free, World.openStep, hopening, World.runStep, World.recvStep,
      World.socketEndStep, World.callbackCallStep, World.callbackEndStep, World.wakeStep,
      World.closeDoneStep, World.stopStep, hb] at hstep

/-- The handshake is out and its reply awaited, or its send raises. -/
theorem Suspended.sendingAuth_step (h : Suspended N σ (.opening c .sendingAuth) w)
    (htask : e.task = some σ) (hstep : step cfg w e = some w') :
    (∃ deadline, Suspended N σ (.opening c (.awaitingReply deadline)) w') ∨
      Replaying N σ [] w' := by
  obtain ⟨a, hb⟩ := h.body
  have hopening : w.opening? σ = some (c, .sendingAuth) := by simp [World.opening?, hb]
  cases e <;> cases htask
  case authSent =>
    simp only [step, h.free, World.openStep, hopening, Bool.false_eq_true, if_false] at hstep
    split at hstep
    · split at hstep <;> cases hstep
      · exact .inr (replaying_openFailed hb h.built)
      · exact .inl ⟨_, suspended_setStage hb h.built⟩
    · cases hstep
  case authSendFailed =>
    simp only [step, h.free, World.openStep, hopening, Bool.false_eq_true, if_false] at hstep
    split at hstep <;> cases hstep
    exact .inr (replaying_openFailed hb h.built)
  all_goals
    simp [step, h.free, World.openStep, hopening, World.runStep, World.recvStep,
      World.socketEndStep, World.callbackCallStep, World.callbackEndStep, World.wakeStep,
      World.closeDoneStep, World.stopStep, hb] at hstep

/-- The reply comes, or it does not come in time: either way `open()` is over. -/
theorem Suspended.awaitingReply_step {deadline : ℚ}
    (h : Suspended N σ (.opening c (.awaitingReply deadline)) w) (htask : e.task = some σ)
    (hstep : step cfg w e = some w') : ∃ entries, Replaying N σ entries w' := by
  obtain ⟨a, hb⟩ := h.body
  have hopening : w.opening? σ = some (c, .awaitingReply deadline) := by
    simp [World.opening?, hb]
  have failed {w₁ : World} (hw : some (w₁.openFailed cfg σ) = some w')
      (hb₁ : w₁.body σ = w.body σ) (hconns : w₁.conns.length = w.conns.length) :
      ∃ entries, Replaying N σ entries w' := by
    cases hw
    exact ⟨[], replaying_openFailed (hb₁.trans hb) (hconns ▸ h.built)⟩
  cases e <;> cases htask
  case authReply =>
    simp only [step, h.free, World.openStep, hopening, Bool.false_eq_true, if_false] at hstep
    split at hstep
    · split at hstep
      · cases hstep
        exact ⟨_, replaying_opened (by exact hb) (by simpa using h.built)⟩
      · exact failed hstep rfl (by simp)
    · cases hstep
  case authTimeout =>
    simp only [step, h.free, World.openStep, hopening, Bool.false_eq_true, if_false] at hstep
    split at hstep
    · exact failed hstep rfl rfl
    · cases hstep
  case authClosed =>
    simp only [step, h.free, World.openStep, hopening, Bool.false_eq_true, if_false] at hstep
    split at hstep
    · exact failed hstep rfl rfl
    · cases hstep
  all_goals
    simp [step, h.free, World.openStep, hopening, World.runStep, World.recvStep,
      World.socketEndStep, World.callbackCallStep, World.callbackEndStep, World.wakeStep,
      World.closeDoneStep, World.stopStep, hb] at hstep

/-- A call of a callback ends in a step, or the task stays in it. -/
theorem Busy.call_step {k : ℕ} (h : Busy N σ c f cb w) (hsound : Sound cfg w)
    (hb : w.body σ = .supervise a (.inCallbackCall c f cb k)) (hact : Acts w e σ)
    (hstep : step cfg w e = some w') : Busy N σ c f cb w' := by
  have hawaits : (w.body σ).awaits σ = some (.callback σ, k) := by simp [hb, Body.awaits]
  rcases concludes_of_acts hsound h.free hawaits hact hstep with
    ⟨rpc, rfl⟩ | ⟨call, outcome, hcall, howner, rfl⟩
  · exact ⟨h.built, h.free, h.runs⟩
  · have hlt : σ < w.tasks.length := World.lt_of_body_ne (by simp [hb])
    simp only [World.conclude, hcall, howner, World.resumeOwner, body_endCall, hb, if_true]
    apply busy_setBody
    · rwa [tasks_endCall]
    · rw [conns_endCall]
      exact h.built

/-- A callback that makes a call runs on, or awaits it. -/
theorem Busy.callbackCall_step {op : Operation} (h : Busy N σ c f cb w)
    (hb : w.body σ = .supervise a (.inCallback c f cb))
    (hstep : step cfg w (.callbackCall σ op) = some w') : Busy N σ c f cb w' := by
  have hlt : σ < w.tasks.length := World.lt_of_body_ne (by simp [hb])
  simp only [step, h.free, World.callbackCallStep, hb, Bool.false_eq_true, if_false] at hstep
  rcases perform_cases cfg w (.callback σ) op with ⟨err, -, hperform⟩ |
    ⟨call, -, -, -, -, hperform⟩ | ⟨call, c', -, -, -, -, hperform⟩
  · rw [hperform] at hstep
    cases hstep
    exact ⟨h.built, h.free, h.runs⟩
  · rw [hperform] at hstep
    cases hstep
    exact ⟨h.built, h.free, h.runs⟩
  · rw [hperform] at hstep
    cases hstep
    refine ⟨?_, ?_, a, .inr ⟨w.rpc.calls.length, World.body_setBody_self _ (by exact hlt)⟩⟩
    · simpa [World.launched] using h.built
    · simp [World.isCancelled, World.launched, hlt]

/-- A callback goes on in a step, or the task goes on to the next one or back to `_pump`. -/
theorem Busy.callback_step (h : Busy N σ c f cb w)
    (hb : w.body σ = .supervise a (.inCallback c f cb)) (htask : e.task = some σ)
    (hstep : step cfg w e = some w') : Busy N σ c f cb w' ∨ Served N σ c f cb w' := by
  have hlt : σ < w.tasks.length := World.lt_of_body_ne (by simp [hb])
  cases e <;> cases htask
  case callbackCall op => exact .inl (h.callbackCall_step hb hstep)
  case callbackEnd result =>
    simp only [step, h.free, World.callbackEndStep, hb, Bool.false_eq_true, if_false] at hstep
    split at hstep <;> cases hstep
    · exact .inr (.inl (.inr (returned_pumpReturned hlt h.built _)))
    · exact .inr (served_dispatch hlt h.built)
    · rename_i h₀ rest wildcard _ _
      refine .inr (served_runHandlers hlt h.built ?_ ?_)
      · rintro h' rest' rfl
        exact .next
      · rintro rfl rfl h' rest'
        exact .wildcard
  all_goals
    simp [step, h.free, World.openStep, World.opening?, World.runStep, World.recvStep,
      World.socketEndStep, World.wakeStep, World.closeDoneStep, World.stopStep, hb] at hstep

/-- A step leaves a task in its callback, or takes it to the next one or back to `_pump`. -/
theorem Busy.step (h : Busy N σ c f cb w) (hsound : Sound cfg w)
    (hstep : Websocket.step cfg w e = some w') : Busy N σ c f cb w' ∨ Served N σ c f cb w' := by
  obtain ⟨a, hruns⟩ := h.runs
  by_cases hact : Acts w e σ
  · rcases hruns with hb | ⟨k, hb⟩
    · have hlt : σ < w.tasks.length := World.lt_of_body_ne (by simp [hb])
      have htask := task_of_acts hsound.linked hstep hact hlt (by rw [hb]; rfl)
      exact h.callback_step hb htask hstep
    · exact .inl (h.call_step hsound hb hact hstep)
  · have hmoves := step_moves hsound.linked hstep
    have hne : w.body σ ≠ .finished := by rcases hruns with hb | ⟨k, hb⟩ <;> simp [hb]
    have hsame := hmoves.body_of_not_acts hact hne
    cases hfree : w'.isCancelled σ with
    | false =>
      exact .inl ⟨h.built.trans hmoves.conns_length, hfree, a, by rw [hsame]; exact hruns⟩
    | true => exact .inr (.inl (.of_retires (.inr hfree)))

/-- `recv` returns a frame and leaves one less in the inbox, or it raises. -/
theorem Suspended.reading_step (h : Suspended N σ (.reading c) w) (htask : e.task = some σ)
    (hstep : step cfg w e = some w') : Returned N σ w' ∨
      ((w'.inbox c).length < (w.inbox c).length ∧
        (Suspended N σ (.reading c) w' ∨ ∃ f, Busy N σ c f .onMessage w')) := by
  obtain ⟨a, hb⟩ := h.body
  cases e <;> cases htask
  case recv =>
    have htaken : (w'.inbox c).length < (w.inbox c).length := by
      obtain ⟨a', c', f, hb', htakes⟩ := recv_takes hstep
      obtain ⟨-, rfl⟩ : a = a' ∧ c = c' := by simpa [hb] using hb'
      rw [htakes c]
      simp
    simp only [step, h.free, World.recvStep, hb, Bool.false_eq_true, if_false] at hstep
    split at hstep
    · split at hstep
      · split at hstep <;> cases hstep
        · exact .inr ⟨htaken, .inl ⟨by simpa using h.built, h.free, h.body⟩⟩
        · exact .inl (returned_pumpReturned (by exact h.lt) (by simpa using h.built) _)
        · exact .inr ⟨htaken, .inr ⟨_, busy_setBody (by exact h.lt) (by simpa using h.built)⟩⟩
      · cases hstep
        exact .inl (returned_pumpReturned (by exact h.lt) (by simpa using h.built) _)
    · cases hstep
  case socketEnd =>
    obtain ⟨a', c', exc, -, rfl⟩ := socketEnd_cases hstep
    exact .inl (returned_pumpReturned h.lt h.built _)
  all_goals
    simp [step, h.free, World.openStep, World.opening?, World.runStep, World.callbackCallStep,
      World.callbackEndStep, World.wakeStep, World.closeDoneStep, World.stopStep, hb] at hstep

/-! ## Fair executions -/

/-- The task whose `open()` a label takes further. -/
def Event.opens : Event → Option ℕ
  | .connected τ | .connectFailed τ | .authSent τ | .authSendFailed τ | .authReply τ
  | .authTimeout τ | .authClosed τ => some τ
  | _ => none

/-- Time goes on, every callback ends, every `ws.send` on a live socket returns, and neither a call
nor a step of the supervise task is neglected for ever. -/
structure FairToSupervise (x : Execution (step cfg) World.init) (σ : ℕ) : Prop where
  time : x.Diverges World.now
  calls : FairToCalls x
  /-- Peers read the frames of calls. -/
  sends : SendsReturn x
  /-- They read the handshake frame, whose `ws.send` no timeout covers either. -/
  greets : x.WeaklyFair {e | e = .authSent σ}
  callbacks : ∀ c f cb, x.LeadsTo (Runs σ c f cb) (fun w => ¬Runs σ c f cb w)
  run : x.WeaklyFair {e | e = .run σ}
  wake : x.WeaklyFair {e | e = .wake σ}
  read : x.WeaklyFair {e | e = .recv σ ∨ e = .socketEnd σ}
  opens : x.WeaklyFair {e | e.opens = some σ ∧ e ≠ .authSent σ}

section

variable {x : Execution (step cfg) World.init} {Q : World → Prop} {labels : Set Event}

/-- What each of its own steps does at a suspension point, other steps leave to it. -/
theorem suspended_keeps (hpc : ∀ a, (Body.supervise a pc).awaits σ = none)
    (hretires : ∀ w, Retires σ w → Q w)
    (hacts : ∀ {w e w'}, Suspended N σ pc w → e.task = some σ → step cfg w e = some w' → Q w')
    (n : ℕ) (h : Suspended N σ pc (x.state n)) :
    Suspended N σ pc (x.state (n + 1)) ∨ Q (x.state (n + 1)) := by
  have hsound := sound_of_execution x n
  by_cases hact : Acts (x.state n) (x.label n) σ
  · obtain ⟨a, hb⟩ := h.body
    have htask := task_of_acts hsound.linked (x.next n) hact h.lt (by rw [hb]; exact hpc a)
    exact .inr (hacts h htask (x.next n))
  · exact (h.stays hsound (x.next n) hact).imp_right (hretires _)

/-- A suspension point at which a label of the task is enabled leads to what its steps do. -/
theorem suspended_leadsTo (hfair : x.WeaklyFair labels) (hlabels : ∀ e ∈ labels, e.task = some σ)
    (hpc : ∀ a, (Body.supervise a pc).awaits σ = none) (hretires : ∀ w, Retires σ w → Q w)
    (hacts : ∀ {w e w'}, Suspended N σ pc w → e.task = some σ → step cfg w e = some w' → Q w')
    (henabled : ∀ w, Suspended N σ pc w → Enabled (step cfg) labels w) :
    x.LeadsTo (Suspended N σ pc) Q := by
  apply hfair.leadsTo
  · exact suspended_keeps hpc hretires hacts
  · exact fun n h => henabled _ h
  · exact fun n h hlabel => hacts h (hlabels _ hlabel) (x.next n)

/-- So does a suspension point at which a label is enabled from some time on. -/
theorem suspended_leadsTo_of_time (htime : x.Diverges World.now) (deadline : ℚ)
    (hfair : x.WeaklyFair labels) (hlabels : ∀ e ∈ labels, e.task = some σ)
    (hpc : ∀ a, (Body.supervise a pc).awaits σ = none) (hretires : ∀ w, Retires σ w → Q w)
    (hacts : ∀ {w e w'}, Suspended N σ pc w → e.task = some σ → step cfg w e = some w' → Q w')
    (henabled : ∀ w, Suspended N σ pc w → deadline ≤ w.now → Enabled (step cfg) labels w) :
    x.LeadsTo (Suspended N σ pc) Q := by
  apply hfair.leadsTo_of_bound htime deadline
  · intro n hdeadline
    exact hdeadline.trans (step_moves (sound_of_execution x n).linked (x.next n)).now_le
  · exact suspended_keeps hpc hretires hacts
  · exact fun n h hdeadline => henabled _ h hdeadline
  · exact fun n h hlabel => hacts h (hlabels _ hlabel) (x.next n)

/-- The task has got to `recv`, it begins a reconnect, or it retires. -/
def ComesRound (N σ : ℕ) (w : World) : Prop :=
  (∃ c, Suspended N σ (.reading c) w) ∨ Tries N σ w ∨ Retires σ w

/-- The sleep before a reconnect ends, and the task tries to connect. -/
theorem backingOff_leadsTo (hfair : FairToSupervise x σ) (wake : ℚ) :
    x.LeadsTo (Suspended N σ (.backingOff wake)) (fun w => Tries N σ w ∨ Retires σ w) := by
  apply suspended_leadsTo_of_time hfair.time wake hfair.wake
  · rintro e rfl
    rfl
  · exact fun _ => rfl
  · exact fun _ h => .inr h
  · exact Suspended.backingOff_step
  · intro w h hwake
    obtain ⟨a, hb⟩ := h.body
    refine ⟨.wake σ, rfl, ?_⟩
    simp only [step, h.free, World.wakeStep, hb, hwake, Bool.false_eq_true, if_false, if_true]
    split <;> rfl

/-- Once `_pump` has returned, the task begins a reconnect. -/
theorem returned_leadsTo (hfair : FairToSupervise x σ) :
    x.LeadsTo (Returned N σ) (fun w => Tries N σ w ∨ Retires σ w) :=
  (LeadsTo.of_exists (backingOff_leadsTo hfair)).or .refl

/-- Once the task has got to `_pump`, it comes round. -/
theorem pumping_leadsTo (hfair : FairToSupervise x σ) (c : ℕ) :
    x.LeadsTo (Pumping N σ c) (ComesRound N σ) := by
  have hreading : x.LeadsTo (Suspended N σ (.reading c)) (ComesRound N σ) :=
    .of_imp (fun _ h => .inl ⟨c, h⟩)
  exact hreading.or ((returned_leadsTo hfair).trans (.of_imp (fun _ h => .inr h)))

/-- A dispatch ends, as each of its callbacks does. -/
theorem busy_leadsTo (hfair : FairToSupervise x σ) (c : ℕ) (f : Inbound) (cb : Callback) :
    x.LeadsTo (Busy N σ c f cb) (Pumping N σ c) := by
  refine LeadsTo.of_wellFounded (P := Busy N σ c f) Callback.wellFounded_next ?_ cb
  intro cb
  have hends : x.LeadsTo (Busy N σ c f cb) (fun w => ¬Busy N σ c f cb w) := by
    intro n h
    obtain ⟨m, hnm, hnot⟩ := hfair.callbacks c f cb n h.runs
    exact ⟨m, hnm, fun h' => hnot h'.runs⟩
  exact hends.exit (fun n h => h.step (sound_of_execution x n) (x.next n))

/-- A `subscribe()` of a replay ends, with its ack or without. -/
theorem subscribing_leadsTo (hfair : FairToSupervise x σ) (k : ℕ) (rest : List Entry) :
    x.LeadsTo (Suspended N σ (.replaying k rest))
      (fun w => (∃ wake, Suspended N σ (.replayGap wake rest) w) ∨ Retires σ w) := by
  have awaits {w : World} (h : Suspended N σ (.replaying k rest) w) :
      (w.body σ).awaits σ = some (.replay σ, k) := by
    obtain ⟨a, hb⟩ := h.body
    simp [hb, Body.awaits]
  apply LeadsTo.exit
  · intro n h
    obtain ⟨m, hnm, hnot⟩ := awaits_leadsTo hfair.calls hfair.sends hfair.time _ k _ n (awaits h)
    exact ⟨m, hnm, fun h' => hnot (awaits h')⟩
  · intro n h
    have hsound := sound_of_execution x n
    by_cases hact : Acts (x.state n) (x.label n) σ
    · exact h.replaying_step hsound hact (x.next n)
    · exact (h.stays hsound (x.next n) hact).imp_right .inr

/-- A replay ends, entry by entry, and the task gets to the pump. -/
theorem replaying_leadsTo (hfair : FairToSupervise x σ) (entries : List Entry) :
    x.LeadsTo (Replaying N σ entries) (ComesRound N σ) := by
  have hpumps : x.LeadsTo (fun w => ∃ c, Pumping N σ c w) (ComesRound N σ) :=
    .of_exists (pumping_leadsTo hfair)
  induction entries with
  | nil =>
    rintro n (⟨k, entry, rest, heq, -⟩ | ⟨wake, entry, rest, heq, -⟩ | hpumping)
    · cases heq
    · cases heq
    · exact hpumps n hpumping
  | cons entry rest ih =>
    have hgap (wake : ℚ) :
        x.LeadsTo (Suspended N σ (.replayGap wake rest)) (Replaying N σ rest) := by
      apply suspended_leadsTo_of_time hfair.time wake hfair.wake
      · rintro e rfl
        rfl
      · exact fun _ => rfl
      · exact fun _ h => .inr (.inr ⟨0, .of_retires h⟩)
      · exact Suspended.replayGap_step
      · intro w h hwake
        obtain ⟨a, hb⟩ := h.body
        refine ⟨.wake σ, rfl, ?_⟩
        simp [step, h.free, World.wakeStep, hb, hwake]
    have hgaps : x.LeadsTo (fun w => ∃ wake, Suspended N σ (.replayGap wake rest) w)
        (ComesRound N σ) := .of_exists (fun wake => (hgap wake).trans ih)
    have hretires : x.LeadsTo (Retires σ) (ComesRound N σ) := .of_imp (fun _ h => .inr (.inr h))
    rintro n (⟨k, entry', rest', heq, h⟩ | ⟨wake, entry', rest', heq, h⟩ | hpumping)
    · cases heq
      exact (subscribing_leadsTo hfair k rest).trans (hgaps.or hretires) n h
    · cases heq
      exact hgaps n ⟨wake, h⟩
    · exact hpumps n hpumping

/-- The labels of an `open()` are steps of its task. -/
theorem task_of_opens :
    ∀ e ∈ {e : Event | e.opens = some σ ∧ e ≠ .authSent σ}, e.task = some σ := by
  rintro e ⟨he, -⟩
  cases e <;> cases he <;> rfl

/-- A task that retires is done with its replay. -/
theorem replaying_of_retires {entries : List Entry} (h : Retires σ w) : Replaying N σ entries w :=
  .inr (.inr ⟨0, .of_retires h⟩)

/-- The server's answer to the `auth` frame comes, or it is too late. -/
theorem awaitingReply_leadsTo (hfair : FairToSupervise x σ) (c : ℕ) (deadline : ℚ) :
    x.LeadsTo (Suspended N σ (.opening c (.awaitingReply deadline))) (ComesRound N σ) := by
  refine LeadsTo.trans ?_ (.of_exists (replaying_leadsTo (N := N) hfair))
  apply suspended_leadsTo_of_time hfair.time deadline hfair.opens task_of_opens
  · exact fun _ => rfl
  · exact fun _ h => ⟨[], replaying_of_retires h⟩
  · exact Suspended.awaitingReply_step
  · intro w h hdeadline
    obtain ⟨a, hb⟩ := h.body
    refine ⟨.authTimeout σ, ⟨rfl, nofun⟩, ?_⟩
    simp [step, h.free, World.openStep, World.opening?, hb, hdeadline]

/-- A socket that is lost before the `auth` frame is sent stays so. -/
theorem Suspended.sendingAuth_lost (h : Suspended N σ (.opening c .sendingAuth) w)
    (hsound : Sound cfg w) (hopenings : Openings w) (hstep : step cfg w e = some w')
    (hsock : w.sock c ≠ .live) : w'.sock c ≠ .live := by
  obtain ⟨a, hb⟩ := h.body
  have hopening : w.opening? σ = some (c, .sendingAuth) := by simp [World.opening?, hb]
  apply not_live_of_step hsound.linked hstep hsock
  intro τ hconnecting
  obtain rfl := hopenings.alone τ σ c _ _ hconnecting hopening
  rw [hopening] at hconnecting
  cases hconnecting

/-- The `auth` frame is sent, or it is refused. -/
theorem sendingAuth_leadsTo (hfair : FairToSupervise x σ) (c : ℕ) :
    x.LeadsTo (Suspended N σ (.opening c .sendingAuth)) (ComesRound N σ) := by
  refine LeadsTo.trans ?_
    ((LeadsTo.of_exists (awaitingReply_leadsTo hfair c)).or (replaying_leadsTo hfair []))
  have hretires : ∀ w, Retires σ w →
      (∃ deadline, Suspended N σ (.opening c (.awaitingReply deadline)) w) ∨ Replaying N σ [] w :=
    fun _ h => .inr (replaying_of_retires h)
  apply LeadsTo.of_held (H := fun w => w.sock c = .live) hfair.greets
  · intro n h
    apply hfair.opens.leadsTo_or_held (P := Suspended N σ (.opening c .sendingAuth))
      (Q := fun w => (∃ deadline, Suspended N σ (.opening c (.awaitingReply deadline)) w) ∨
        Replaying N σ [] w) (H := fun w => w.sock c = .live) ?_ ?_ ?_ ?_ h
    · exact suspended_keeps (fun _ => rfl) hretires Suspended.sendingAuth_step
    · intro n h hsock _
      obtain ⟨es, hrun⟩ := x.run n
      exact h.sendingAuth_lost (sound_of_run hrun) (openings_of_run hrun) (x.next n) hsock
    · intro n h hsock
      obtain ⟨a, hb⟩ := h.body
      refine ⟨.authSendFailed σ, ⟨rfl, nofun⟩, ?_⟩
      simp [step, h.free, World.openStep, World.opening?, hb, hsock]
    · exact fun n h hlabel => h.sendingAuth_step (task_of_opens _ hlabel) (x.next n)
  · intro n h hlive
    obtain ⟨a, hb⟩ := h.body
    refine ⟨.authSent σ, rfl, ?_⟩
    simp only [step, h.free, World.openStep, World.opening?, hb, hlive, Bool.false_eq_true,
      if_false, if_true]
    split <;> rfl
  · intro n h hlabel
    exact h.sendingAuth_step (by rw [hlabel]; rfl) (x.next n)

/-- The `open()` of a reconnect ends, stage by stage, and the task gets to the pump. -/
theorem opening_leadsTo (hfair : FairToSupervise x σ) (c : ℕ) (stage : OpenStage) :
    x.LeadsTo (Suspended N σ (.opening c stage)) (ComesRound N σ) := by
  cases stage with
  | awaitingReply deadline => exact awaitingReply_leadsTo hfair c deadline
  | sendingAuth => exact sendingAuth_leadsTo hfair c
  | connecting =>
    refine LeadsTo.trans ?_ ((sendingAuth_leadsTo hfair c).or (replaying_leadsTo hfair []))
    apply suspended_leadsTo hfair.opens task_of_opens
    · exact fun _ => rfl
    · exact fun _ h => .inr (replaying_of_retires h)
    · exact Suspended.connecting_step
    · intro w h
      obtain ⟨a, hb⟩ := h.body
      refine ⟨.connected σ, ⟨rfl, nofun⟩, ?_⟩
      simp [step, h.free, World.openStep, World.opening?, hb]

/-- From every suspension point the task comes round. -/
theorem suspended_comesRound (hfair : FairToSupervise x σ) (pc : SuperviseAt) :
    x.LeadsTo (Suspended N σ pc) (ComesRound N σ) := by
  have hbusy (c : ℕ) (f : Inbound) (cb : Callback) : x.LeadsTo (Busy N σ c f cb) (ComesRound N σ) :=
    (busy_leadsTo hfair c f cb).trans (pumping_leadsTo hfair c)
  cases pc with
  | ready =>
    refine LeadsTo.trans ?_ (.of_exists (pumping_leadsTo hfair))
    apply suspended_leadsTo hfair.run
    · rintro e rfl
      rfl
    · exact fun _ => rfl
    · exact fun _ h => ⟨0, .of_retires h⟩
    · exact Suspended.ready_step
    · intro w h
      obtain ⟨a, hb⟩ := h.body
      refine ⟨.run σ, rfl, ?_⟩
      simp [step, h.free, World.runStep, hb]
  | reading c => exact .of_imp (fun _ h => .inl ⟨c, h⟩)
  | inCallback c f cb =>
    intro n h
    obtain ⟨a, hb⟩ := h.body
    exact hbusy c f cb n ⟨h.built, h.free, a, .inl hb⟩
  | inCallbackCall c f cb k =>
    intro n h
    obtain ⟨a, hb⟩ := h.body
    exact hbusy c f cb n ⟨h.built, h.free, a, .inr ⟨k, hb⟩⟩
  | backingOff wake => exact (backingOff_leadsTo hfair wake).trans (.of_imp (fun _ h => .inr h))
  | opening c stage => exact opening_leadsTo hfair c stage
  | replaying k rest =>
    have hfirst : x.LeadsTo (Suspended N σ (.replaying k rest))
        (Replaying N σ (("", .empty) :: rest)) := .of_imp (fun _ h => .inl ⟨k, _, rest, rfl, h⟩)
    exact hfirst.trans (replaying_leadsTo hfair _)
  | replayGap wake rest =>
    have hfirst : x.LeadsTo (Suspended N σ (.replayGap wake rest))
        (Replaying N σ (("", .empty) :: rest)) :=
      .of_imp (fun _ h => .inr (.inl ⟨wake, _, rest, rfl, h⟩))
    exact hfirst.trans (replaying_leadsTo hfair _)

/-! ## Connections that have ended -/

/-- The socket of a connection has closed and left some frames at most. -/
def Spent (c i : ℕ) (w : World) : Prop :=
  (∃ clean, w.sock c = .closed clean) ∧ (w.inbox c).length ≤ i

/-- A closed socket stays closed, and the inbox of its connection does not grow again. -/
theorem spent_stable (x : Execution (step cfg) World.init) (c i n : ℕ)
    (h : Spent c i (x.state n)) : Spent c i (x.state (n + 1)) := by
  obtain ⟨es, hrun⟩ := x.run n
  obtain ⟨hclosed, hle⟩ := closed_of_step hrun (x.next n) h.1
  exact ⟨hclosed, hle.trans h.2⟩

/-- A task that reads a connection whose socket has closed takes one of the frames left, or its
`_pump` returns. -/
theorem spent_leadsTo (hfair : FairToSupervise x σ) (c i : ℕ) :
    x.LeadsTo (fun w => Suspended N σ (.reading c) w ∧ Spent c i w)
      (fun w => Returned N σ w ∨ ∃ j, j < i ∧
        ((Suspended N σ (.reading c) w ∨ ∃ f, Busy N σ c f .onMessage w) ∧ Spent c j w)) := by
  have hacts (n : ℕ) (h : Suspended N σ (.reading c) (x.state n)) (hspent : Spent c i (x.state n))
      (htask : (x.label n).task = some σ) : Returned N σ (x.state (n + 1)) ∨ ∃ j, j < i ∧
        ((Suspended N σ (.reading c) (x.state (n + 1)) ∨
          ∃ f, Busy N σ c f .onMessage (x.state (n + 1))) ∧ Spent c j (x.state (n + 1))) := by
    refine (h.reading_step htask (x.next n)).imp_right ?_
    rintro ⟨hfewer, hgoes⟩
    have hle := hspent.2
    exact ⟨((x.state (n + 1)).inbox c).length, by omega, hgoes,
      (spent_stable x c i n hspent).1, le_rfl⟩
  apply hfair.read.leadsTo
  · rintro n ⟨h, hspent⟩
    have hsound := sound_of_execution x n
    by_cases hact : Acts (x.state n) (x.label n) σ
    · obtain ⟨a, hb⟩ := h.body
      have htask := task_of_acts hsound.linked (x.next n) hact h.lt (by rw [hb]; rfl)
      exact .inr (hacts n h hspent htask)
    · rcases h.stays hsound (x.next n) hact with hstays | hretires
      · exact .inl ⟨hstays, spent_stable x c i n hspent⟩
      · exact .inr (.inl (.of_retires hretires))
  · rintro n ⟨h, ⟨clean, hclosed⟩, -⟩
    obtain ⟨a, hb⟩ := h.body
    refine ⟨.socketEnd σ, .inr rfl, ?_⟩
    cases clean <;> simp [step, h.free, World.socketEndStep, hb, hclosed]
  · rintro n ⟨h, hspent⟩ hlabel
    apply hacts n h hspent
    rcases hlabel with hlabel | hlabel <;> rw [hlabel] <;> rfl

/-- A task that reads a connection whose socket has closed begins a reconnect. -/
theorem closed_leadsTo (hfair : FairToSupervise x σ) (c i : ℕ) :
    x.LeadsTo (fun w => Suspended N σ (.reading c) w ∧ Spent c i w)
      (fun w => Tries N σ w ∨ Retires σ w) := by
  refine LeadsTo.of_wellFounded (P := fun i w => Suspended N σ (.reading c) w ∧ Spent c i w)
    wellFounded_lt ?_ i
  intro i
  have hpumps (j : ℕ) : x.LeadsTo (fun w => (Suspended N σ (.reading c) w ∨
      ∃ f, Busy N σ c f .onMessage w) ∧ Spent c j w) (fun w => Pumping N σ c w ∧ Spent c j w) := by
    have hreading : x.LeadsTo (Suspended N σ (.reading c)) (Pumping N σ c) :=
      .of_imp (fun _ h => .inl h)
    exact (hreading.or (.of_exists (fun f => busy_leadsTo hfair c f _))).and_stable
      (spent_stable x c j)
  have hreturns : x.LeadsTo (Returned N σ) (fun w => (Tries N σ w ∨ Retires σ w) ∨
      ∃ j, j < i ∧ Suspended N σ (.reading c) w ∧ Spent c j w) :=
    (returned_leadsTo hfair).trans (.of_imp (fun _ h => .inl h))
  refine (spent_leadsTo hfair c i).trans (hreturns.or ?_)
  apply LeadsTo.of_exists
  rintro j n ⟨hlt, h⟩
  obtain ⟨m, hnm, hreading | hreturned, hspent⟩ := hpumps j n h
  · exact ⟨m, hnm, .inr ⟨j, hlt, hreading, hspent⟩⟩
  · obtain ⟨l, hml, hQ⟩ := hreturns m hreturned
    exact ⟨l, hnm.trans hml, hQ⟩

/-- In every infinite execution in which time goes on, the callbacks end, every `ws.send` on a live
socket returns and no call and no step of the supervise task is neglected for ever, the task is
never stuck: wherever it stands, it comes to `recv` or begins a reconnect, and where it reads a
connection whose socket has closed it begins a reconnect, unless it has ended or is to be
cancelled. -/
theorem supervise_never_stuck (hfair : FairToSupervise x σ) {n : ℕ}
    (hb : (x.state n).body σ = .supervise a pc) :
    (∃ m, n ≤ m ∧ ((∃ a c, (x.state m).body σ = .supervise a (.reading c)) ∨
      Tries (x.state n).conns.length σ (x.state m) ∨ Retires σ (x.state m))) ∧
    ∀ c clean, pc = .reading c → (x.state n).sock c = .closed clean →
      ∃ m, n ≤ m ∧ (Tries (x.state n).conns.length σ (x.state m) ∨ Retires σ (x.state m)) := by
  rcases suspended_or_retires le_rfl hb with h | hretires
  swap
  · exact ⟨⟨n, le_rfl, .inr (.inr hretires)⟩, fun _ _ _ _ => ⟨n, le_rfl, .inr hretires⟩⟩
  constructor
  · obtain ⟨m, hnm, ⟨c, hreading⟩ | hgoes⟩ := suspended_comesRound hfair pc n h
    · obtain ⟨a', hb'⟩ := hreading.body
      exact ⟨m, hnm, .inl ⟨a', c, hb'⟩⟩
    · exact ⟨m, hnm, .inr hgoes⟩
  · rintro c clean rfl hclosed
    exact closed_leadsTo hfair c _ n ⟨h, ⟨clean, hclosed⟩, le_rfl⟩

end

/-- A task that reads an empty inbox of a live socket takes no step. -/
theorem step_eq_none_of_reading (hb : w.body σ = .supervise a (.reading c))
    (hfree : w.isCancelled σ = false) (hempty : w.inbox c = []) (hlive : w.sock c = .live)
    (htask : e.task = some σ) : step cfg w e = none := by
  cases e <;> cases htask
  case recv =>
    cases hstep : step cfg w (.recv σ) with
    | none => rfl
    | some w' =>
      obtain ⟨a', c', f, hb', htakes⟩ := recv_takes hstep
      obtain ⟨-, rfl⟩ : a = a' ∧ c = c' := by simpa [hb] using hb'
      have htaken := htakes c
      simp [hempty] at htaken
  all_goals
    simp [step, hfree, World.openStep, World.opening?, World.runStep, World.socketEndStep,
      World.callbackCallStep, World.callbackEndStep, World.wakeStep, World.closeDoneStep,
      World.stopStep, hb, hlive]

/-- A client whose supervise task reads a connection on which nothing arrives may idle. -/
theorem fairToSupervise_of_idle {x : Execution (step cfg) World.init} {n : ℕ}
    (hx : x.Continues n (w.idle cfg)) (hended : ∀ call ∈ w.rpc.calls, call.phase.isEnded = true)
    (hquiet : ∀ t ∈ w.tasks, t.cancelled = false) (hb : w.body σ = .supervise a (.reading c))
    (hempty : w.inbox c = []) (hlive : w.sock c = .live) : FairToSupervise x σ := by
  have hfree : w.isCancelled σ = false := World.isCancelled_of_quiet hquiet σ
  have hfair (labels : Set Event) (hlabels : ∀ e ∈ labels, e.task = some σ) :
      x.WeaklyFair labels := by
    apply hx.weaklyFair
    apply WeaklyFair.of_disabled
    exact fun m e he => step_eq_none_of_reading (by exact hb) (by exact hfree) (by exact hempty)
      (by exact hlive) (hlabels e he)
  refine ⟨hx.diverges (diverges_idle cfg w), fairToCalls_of_idle hx hended hquiet,
    sendsReturn_of_idle hx hended hquiet, hfair _ ?_, ?_, hfair _ ?_, hfair _ ?_, hfair _ ?_,
    hfair _ task_of_opens⟩
  · rintro e rfl
    rfl
  · intro c' f cb
    apply hx.leadsTo_not
    rintro m ⟨a', hruns⟩
    have hb' : ((w.idle cfg).state m).body σ = .supervise a (.reading c) := hb
    simp [hb'] at hruns
  · rintro e rfl
    rfl
  · rintro e rfl
    rfl
  · rintro e (rfl | rfl) <;> rfl

/-- The connection of a started client drops while its supervise task reads. -/
def droppedEvents : List Event := startEvents ++ [.sockClosed 0 true]

/-- The next one is accepted, and the task reads from it. -/
def reconnectEnd : List Event := [.socketEnd 1, .tick (1 / 2), .wake 1] ++ openEvents 1 1

/-- A connection that the server closed is one from which the supervise task gets away. -/
theorem supervise_never_stuck_dropped :
    ∃ (x : Execution (step (.sample .kraken none)) World.init) (n m : ℕ), FairToSupervise x 1 ∧
      (x.state n).body 1 = .supervise 0 (.reading 0) ∧ (x.state n).sock 0 = .closed true ∧
      n ≤ m ∧ (Tries (x.state n).conns.length 1 (x.state m) ∨ Retires 1 (x.state m)) := by
  obtain ⟨v, hfirst, hb, hclosed⟩ :
      ∃ v, Run (step (.sample .kraken none)) always World.init droppedEvents v ∧
        v.body 1 = .supervise 0 (.reading 0) ∧ v.sock 0 = .closed true :=
    Run.exists_of_exec (by decide +kernel)
  obtain ⟨w, hall, hended, hquiet, hb', hempty, hlive⟩ :
      ∃ w, Run (step (.sample .kraken none)) always World.init
          (droppedEvents ++ reconnectEnd) w ∧
        (∀ call ∈ w.rpc.calls, call.phase.isEnded = true) ∧ (∀ t ∈ w.tasks, t.cancelled = false) ∧
        w.body 1 = .supervise 1 (.reading 1) ∧ w.inbox 1 = [] ∧ w.sock 1 = .live :=
    Run.exists_of_exec (by decide +kernel)
  obtain ⟨v', hfirst', hrest⟩ := hall.of_append
  obtain rfl := hfirst.unique hfirst'
  obtain ⟨y, hy⟩ := Execution.exists_continues hrest (w.idle _)
  obtain ⟨x, hx⟩ := Execution.exists_continues hfirst y
  have hfair : FairToSupervise x 1 :=
    fairToSupervise_of_idle (hx.trans hy) hended hquiet hb' hempty hlive
  have hstate : x.state droppedEvents.length = v := (hx.state 0).trans y.init
  have hreads : (x.state droppedEvents.length).body 1 = .supervise 0 (.reading 0) := by
    rw [hstate, hb]
  have hcloses : (x.state droppedEvents.length).sock 0 = .closed true := by rw [hstate, hclosed]
  obtain ⟨m, hnm, htries⟩ := (supervise_never_stuck hfair hreads).2 0 true rfl hcloses
  exact ⟨x, _, m, hfair, hreads, hcloses, hnm, htries⟩

end ProxyClient.Websocket
