import ProxyClient.Websocket.Delivery
import ProxyClient.Websocket.ReadLoop
import ProxyClient.Websocket.Wire

/-!
# Frames that no dispatch has reached yet

A frame that arrives lies in the inbox of its connection until the pump takes it, and then in
the hand of the supervise task until `on_message` has ended. While the client runs on the
connection no such frame is lost: it is offered to `resolve`, or the pump returns and fails
the pending calls.
-/

namespace ProxyClient.Websocket

open Transition

variable {cfg : Config} {w₀ w w' : World} {e : Event} {σ τ c : ℕ} {f : Inbound}

/-! ## Unread frames -/

/-- The connection and the frame for which a supervise task runs `on_message`. -/
def Body.undispatched : Body → Option (ℕ × Inbound)
  | .supervise _ (.inCallback c f .onMessage)
  | .supervise _ (.inCallbackCall c f .onMessage _) => some (c, f)
  | _ => none

/-- A frame that arrived on a connection has not been offered to `resolve` yet: it lies in the
inbox, or `on_message` still runs for it. -/
def World.Unread (w : World) (c : ℕ) (f : Inbound) : Prop :=
  f ∈ w.inbox c ∨ ∃ σ < w.tasks.length, (w.body σ).undispatched = some (c, f)

instance (w : World) (c : ℕ) (f : Inbound) : Decidable (w.Unread c f) :=
  inferInstanceAs (Decidable (_ ∨ _))

/-- A client that runs holds the connection, and no `open()` of it is under way. -/
structure World.RunsOn (w : World) (c : ℕ) : Prop where
  running : w.running = true
  current : w.conn = some c
  opened : ∀ τ < w.tasks.length, (w.opening? τ).map Prod.fst ≠ some c

instance (w : World) (c : ℕ) : Decidable (w.RunsOn c) :=
  decidable_of_iff
    (w.running = true ∧ w.conn = some c ∧
      ∀ τ < w.tasks.length, (w.opening? τ).map Prod.fst ≠ some c)
    ⟨fun ⟨hrun, hconn, hopened⟩ => ⟨hrun, hconn, hopened⟩,
      fun h => ⟨h.running, h.current, h.opened⟩⟩

/-- On the connection that a client runs on, nobody is inside `open()`. -/
theorem World.RunsOn.not_opening (h : w.RunsOn c) (τ : ℕ) (stage : OpenStage) :
    w.opening? τ ≠ some (c, stage) := by
  intro hopening
  have hlt : τ < w.tasks.length := World.lt_of_body_ne (Body.of_opening hopening).1
  exact h.opened τ hlt (by rw [hopening]; rfl)

/-- A frame is not dispatched yet while `on_message` runs for it, or a call that `on_message`
makes. -/
theorem Body.undispatched_cases {b : Body} (h : b.undispatched = some (c, f)) :
    (∃ a, b = .supervise a (.inCallback c f .onMessage)) ∨
      ∃ a k, b = .supervise a (.inCallbackCall c f .onMessage k) := by
  unfold Body.undispatched at h
  split at h
  · cases h
    exact .inl ⟨_, rfl⟩
  · cases h
    exact .inr ⟨_, _, rfl⟩
  · cases h

/-- The task that has it in hand pumps its connection. -/
theorem Body.pumps_of_undispatched {b : Body} (h : b.undispatched = some (c, f)) :
    b.pumps = some c := by
  rcases Body.undispatched_cases h with ⟨a, rfl⟩ | ⟨a, k, rfl⟩
  · rfl
  · rfl

/-- Such a frame is unread. -/
theorem World.Unread.of_body (h : (w.body σ).undispatched = some (c, f)) : w.Unread c f :=
  .inr ⟨σ, lt_of_pumps (Body.pumps_of_undispatched h), h⟩

/-! ## One step -/

/-- The pump of a running client takes the frame in hand, or the frame stays in the inbox. -/
theorem unread_of_inbox (hsound : Sound cfg w) (hstep : step cfg w e = some w')
    (hrun : w.running = true) (hopened : ∀ τ stage, w.opening? τ ≠ some (c, stage))
    (hraw : ∃ msg, f.raw = .json msg) (hf : f ∈ w.inbox c) : w'.Unread c f := by
  have hinbox := inbox_step hsound.linked hstep c
  have hmem : f ∈ (taken c w e).toList ++ w'.inbox c := by
    rw [hinbox]
    exact List.mem_append_left _ hf
  rcases List.mem_append.mp hmem with htaken | hleft
  swap
  · exact .inl hleft
  have hhead : taken c w e = some f := by simpa using htaken
  cases e with
  | recv σ =>
    obtain ⟨a, c', f', hb, -⟩ := recv_takes hstep
    simp only [taken, hb, Body.reads, decide_eq_true_eq] at hhead
    split at hhead
    swap
    · cases hhead
    rename_i hc
    subst hc
    have hlt : σ < w.tasks.length := World.lt_of_body_ne (by rw [hb]; simp)
    obtain ⟨msg, hmsg⟩ := hraw
    have hrecv := step_guarded hstep
    simp only [World.recvStep, hb] at hrecv
    split at hrecv
    · rename_i f₀ inbox hfront
      have hfirst : (w.inbox c').head? = some f₀ := by simp [World.inbox, hfront]
      obtain rfl := Option.some.inj (hfirst.symm.trans hhead)
      simp only [World.modifyConn_running, hrun, if_true, hmsg, Option.some.injEq] at hrecv
      subst hrecv
      apply World.Unread.of_body (σ := σ)
      rw [World.body_setBody_self _ (by simpa using hlt)]
      rfl
    · cases hrecv
  | authReply τ =>
    obtain ⟨c', deadline, f', hopening, -⟩ := authReply_takes hstep
    simp only [taken, World.reads_of_opening hopening c, decide_eq_true_eq] at hhead
    split at hhead
    · rename_i hc
      subst hc
      exact absurd hopening (hopened τ _)
    · cases hhead
  | _ => cases hhead

/-- The end of a call leaves the task that awaits it with its frame. -/
theorem undispatched_callStep {k : ℕ} {call : Call} (hlinked : Linked w)
    (hcallNo : e.callNo = some k) (hstep : w.callStep cfg k e = some w')
    (hcall : w.rpc.calls[k]? = some call) (htask : call.owner.task = some σ)
    (hb : (w.body σ).undispatched = some (c, f)) :
    (w'.body σ).undispatched = some (c, f) := by
  have hlt := lt_of_pumps (Body.pumps_of_undispatched hb)
  obtain ⟨call', hcall', hended, ⟨-, deadline, rfl⟩ | ⟨outcome, -, rfl⟩⟩ :=
    callStep_cases hcallNo hstep
  · exact hb
  · obtain rfl := Option.some.inj (hcall'.symm.trans hcall)
    have hawaits := hlinked.awaited hcall hended htask
    rcases Body.undispatched_cases hb with ⟨a, hbody⟩ | ⟨a, k', hbody⟩
    · rw [hbody] at hawaits
      cases hawaits
    · rw [hbody] at hawaits
      obtain ⟨howner, rfl⟩ := Prod.mk.inj (Option.some.inj hawaits)
      simp only [World.conclude, hcall, ← howner, World.resumeOwner, body_endCall, hbody, if_true]
      rw [World.body_setBody_self _ (by rwa [tasks_endCall])]
      rfl

/-- A callback of a task that calls the client leaves the task with its frame. -/
theorem undispatched_callbackCall {op : Operation}
    (hstep : step cfg w (.callbackCall σ op) = some w')
    (hb : (w.body σ).undispatched = some (c, f)) :
    (w'.body σ).undispatched = some (c, f) := by
  have hlt := lt_of_pumps (Body.pumps_of_undispatched hb)
  have hcall := step_guarded hstep
  rcases Body.undispatched_cases hb with ⟨a, hbody⟩ | ⟨a, k, hbody⟩
  · simp only [World.callbackCallStep, hbody] at hcall
    rcases perform_cases cfg w (.callback σ) op with ⟨err, -, hperform⟩ |
      ⟨call, -, -, -, -, hperform⟩ | ⟨call, c₁, -, -, -, -, hperform⟩
    · simp only [hperform, Option.some.injEq] at hcall
      exact hcall ▸ hb
    · simp only [hperform, Option.some.injEq] at hcall
      exact hcall ▸ hb
    · simp only [hperform, Option.some.injEq] at hcall
      subst hcall
      rw [World.body_setBody_self _ (by exact hlt)]
      rfl
  · simp [World.callbackCallStep, hbody] at hcall

/-- A `CancelledError` thrown into `on_message` leaves the task with its frame. -/
theorem undispatched_deliverCancel (hstep : step cfg w (.deliverCancel σ) = some w')
    (hb : (w.body σ).undispatched = some (c, f)) :
    (w'.body σ).undispatched = some (c, f) := by
  have hlt := lt_of_pumps (Body.pumps_of_undispatched hb)
  rcases Body.undispatched_cases hb with ⟨a, hbody⟩ | ⟨a, k, hbody⟩
  · simp only [step, World.cancelStep, hbody] at hstep
    split at hstep <;> cases hstep
    rw [World.body_setBody_self _ hlt]
    rfl
  · simp only [step, World.cancelStep, hbody] at hstep
    split at hstep <;> cases hstep
    rw [World.body_setBody_self _ (by rwa [tasks_endCall])]
    rfl

/-- The end of `on_message` takes the frame to `resolve`, or ends the pump. -/
theorem undispatched_callbackEnd {result : CallbackResult}
    (hstep : step cfg w (.callbackEnd σ result) = some w') (hrun : w.running = true)
    (hb : (w.body σ).undispatched = some (c, f)) :
    Resolves w (.callbackEnd σ result) σ c f ∨
      ∃ exc, w'.rpc = w.rpc.failAll (World.asConnectionError exc) := by
  have hend := step_guarded hstep
  rcases Body.undispatched_cases hb with ⟨a, hbody⟩ | ⟨a, k, hbody⟩
  · cases result with
    | returned => exact .inl ⟨.inl rfl, a, hbody⟩
    | raised => exact .inl ⟨.inr rfl, a, hbody⟩
    | cancelled =>
      simp only [World.callbackEndStep, hbody, Option.some.injEq] at hend
      exact .inr ⟨none, hend ▸ rpc_pumpReturned cfg σ a none hrun⟩
  · simp [World.callbackEndStep, hbody] at hend

/-- A supervise task that runs `on_message` for a frame goes on to `resolve`, or its pump returns
and fails the pending calls. -/
theorem undispatched_step (hsound : Sound cfg w) (hstep : step cfg w e = some w')
    (hrun : w.running = true) (hb : (w.body σ).undispatched = some (c, f)) :
    (w'.body σ).undispatched = some (c, f) ∨ Resolves w e σ c f ∨
      ∃ exc, w'.rpc = w.rpc.failAll (World.asConnectionError exc) := by
  have hpumps := Body.pumps_of_undispatched hb
  have hnot : ∀ a c', w.body σ ≠ .supervise a (.reading c') := by
    intro a c' hreading
    rw [hreading] at hb
    cases hb
  by_cases hact : Acts w e σ
  swap
  · have hne : w.body σ ≠ .finished := by
      intro hfinished
      rw [hfinished] at hb
      cases hb
    exact .inl (by rw [(step_moves hsound.linked hstep).body_of_not_acts hact hne, hb])
  cases hact with
  | stop => exact absurd (lt_of_pumps hpumps) (by omega)
  | @call e k call _ hk hcall htask =>
    have hcallStep : w.callStep cfg k e = some w' := by
      cases e <;> cases hk <;> exact hstep
    exact .inl (undispatched_callStep hsound.linked hk hcallStep hcall htask hb)
  | task htask =>
    rcases task_of_pumps hstep hpumps htask with he | rfl | rfl | ⟨op, rfl⟩
    · cases e <;> cases he
      · obtain ⟨a, c', f', hreading, -⟩ := recv_takes hstep
        exact absurd hreading (hnot a c')
      · exact .inr (undispatched_callbackEnd hstep hrun hb)
    · obtain ⟨a, c', exc, hreading, -⟩ := socketEnd_cases hstep
      exact absurd hreading (hnot a c')
    · exact .inl (undispatched_deliverCancel hstep hb)
    · exact .inl (undispatched_callbackCall hstep hb)

/-- While the client runs, a frame that is unread is so after a step, or is offered to `resolve` in
it, or the step fails the pending calls. -/
theorem unread_step (hsound : Sound cfg w) (hstep : step cfg w e = some w')
    (hrun : w.running = true) (hopened : ∀ τ stage, w.opening? τ ≠ some (c, stage))
    (hraw : ∃ msg, f.raw = .json msg) (hunread : w.Unread c f) :
    w'.Unread c f ∨ (∃ σ, Resolves w e σ c f) ∨
      ∃ exc, w'.rpc = w.rpc.failAll (World.asConnectionError exc) := by
  rcases hunread with hinbox | ⟨σ, -, hb⟩
  · exact .inl (unread_of_inbox hsound hstep hrun hopened hraw hinbox)
  · rcases undispatched_step hsound hstep hrun hb with hsame | hres | hfails
    · exact .inl (.of_body hsame)
    · exact .inr (.inl ⟨σ, hres⟩)
    · exact .inr (.inr hfails)

/-! ## Frames that arrived -/

/-- A frame that has arrived after a step had arrived before it, or is now in the inbox. -/
theorem received_step (hsound : Sound cfg w) (hstep : step cfg w e = some w') {conn' : Connection}
    (hconn' : w'.conns[c]? = some conn') (hf : f ∈ conn'.received) :
    (∃ conn, w.conns[c]? = some conn ∧ f ∈ conn.received) ∨ f ∈ w'.inbox c := by
  rcases (step_moves hsound.linked hstep).received hconn' hf with hold | rfl
  · exact .inl hold
  · right
    have hinbox := inbox_step hsound.linked hstep c
    simp only [taken, arrived, if_true, Option.toList_none, List.nil_append] at hinbox
    simp [hinbox]

/-! ## The connection a client runs on -/

/-- A client that runs on a connection which is not new ran on it before the move. -/
theorem Move.runs_on (h : Move cfg w₀ e w w') (hlt : c < w.conns.length)
    (hrun : w'.running = true) (hcurrent : w'.conn = some c) :
    w.running = true ∧ w.conn = some c := by
  cases h with
  | start =>
    cases hcurrent
    exact absurd hlt (by omega)
  | reconnect =>
    cases hcurrent
    exact absurd hlt (by omega)
  | halt => cases hrun
  | drop => cases hcurrent
  | endCall =>
    rw [endCall_eq] at hrun hcurrent
    exact ⟨hrun, hcurrent⟩
  | resume =>
    rw [endCall_eq] at hrun hcurrent
    exact ⟨hrun, hcurrent⟩
  | _ => exact ⟨hrun, hcurrent⟩

/-- A client that runs on after a step on the same connection ran on it before. -/
theorem Moves.runs_on (h : Moves cfg w₀ e w w') (hlt : c < w.conns.length)
    (hrun : w'.running = true) (hcurrent : w'.conn = some c) :
    w.running = true ∧ w.conn = some c := by
  induction h with
  | refl => exact ⟨hrun, hcurrent⟩
  | tail hchain hlast ih =>
    obtain ⟨hrun₁, hcurrent₁⟩ :=
      hlast.runs_on (hlt.trans_le (Moves.conns_length hchain)) hrun hcurrent
    exact ih hrun₁ hcurrent₁

end ProxyClient.Websocket
