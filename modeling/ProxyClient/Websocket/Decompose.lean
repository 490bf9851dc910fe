import ProxyClient.Websocket.Moves

/-!
# Every step decomposes into moves

One lemma for each function of the source says which moves it makes. They compose into
`step_moves`, the refinement of the transition function by moves. It relies on `Linked`: a
call that is awaited inline and the suspension point of its task always belong together.
-/

namespace ProxyClient.Websocket

open Relation

/-- The calls that tasks await and the suspension points of these tasks belong together. -/
structure Linked (w : World) : Prop where
  /-- The owner of a call that has not ended is suspended in it. -/
  awaited : ∀ {k call τ}, w.rpc.calls[k]? = some call → call.phase.isEnded = false →
    call.owner.task = some τ → (w.body τ).awaits τ = some (call.owner, k)
  /-- A task is suspended only in calls that have not ended. -/
  calls : ∀ {τ owner k}, (w.body τ).awaits τ = some (owner, k) →
    ∃ call, w.rpc.calls[k]? = some call ∧ call.owner = owner ∧ call.phase.isEnded = false

variable {cfg : Config} {w₀ w w' : World} {e : Event} {σ τ c k attempt : ℕ}

namespace Moves

/-- A task goes to its next suspension point. -/
theorem goto {b : Body} (hact : Acts w₀ e τ) (hgo : Goes cfg w₀ e w τ (w.body τ) b) :
    Moves cfg w₀ e w (w.setBody τ b) :=
  .single (.goto hact hgo)

/-- A task that awaits no call ends. -/
theorem finish (hact : Acts w₀ e τ) (hn : (w.body τ).awaits τ = none) :
    Moves cfg w₀ e w (w.finish τ) :=
  goto hact (.finish hn)

/-- Something happens to a connection, and nothing else in this move. -/
theorem alter {f : Connection → Connection} (h : Alters w₀ e w c f) :
    Moves cfg w₀ e w (w.modifyConn c f) :=
  .single (.alter h)

/-! ## The supervise task -/

end Moves

/-- The reason why `_pump` returned does not depend on the correlator. -/
theorem PumpReturns.rpc {r : Rpc} (h : PumpReturns cfg w₀ e w σ) :
    PumpReturns cfg w₀ e { w with rpc := r } σ := by
  cases h with
  | closed hpumps hconn hsock => exact .closed hpumps hconn hsock
  | aborts htask haborts hpumps hconn hsock => exact .aborts htask haborts hpumps hconn hsock
  | absent hconn => exact .absent hconn
  | detached hconn hdetached => exact .detached hconn hdetached
  | concurrent hother => exact .concurrent hother

/-- The task whose `_pump` returned no longer reads. -/
theorem PumpReturns.finish (h : PumpReturns cfg w₀ e w σ) :
    PumpReturns cfg w₀ e (w.finish σ) σ := by
  cases h with
  | closed hpumps hconn hsock => exact .closed hpumps hconn hsock
  | aborts htask haborts hpumps hconn hsock => exact .aborts htask haborts hpumps hconn hsock
  | absent hconn => exact .absent hconn
  | detached hconn hdetached => exact .detached hconn hdetached
  | @concurrent c hother =>
    refine .concurrent (c := c) ?_
    obtain ⟨i, hi, hreads⟩ := List.any_eq_true.mp hother
    obtain ⟨hne, hreads⟩ := Bool.and_eq_true_iff.mp hreads
    refine List.any_eq_true.mpr ⟨i, by simpa using hi, ?_⟩
    rw [World.finish, World.body_setBody_of_ne _ (by simpa using hne)]
    simpa using ⟨by simpa using hne, hreads⟩

namespace Moves

/-- `_supervise` after `_pump` returned fails the pending futures, and then goes wherever the policy
sends it. -/
theorem pumpReturned {pc : SuperviseAt} {a : ℕ} (hact : Acts w₀ e σ)
    (hb : w.body σ = .supervise a pc) (hn : (Body.supervise a pc).awaits σ = none)
    (hbody : w.body σ = w₀.body σ) (hreturns : w.running = true → PumpReturns cfg w₀ e w σ)
    (lastError : Option Exc) : Moves cfg w₀ e w (w.pumpReturned cfg σ attempt lastError) := by
  unfold World.pumpReturned
  split
  · rename_i hrun
    set w₁ : World := { w with rpc := w.rpc.failAll (World.asConnectionError lastError) }
    have hfail : Moves cfg w₀ e w w₁ := .single (.failAll lastError hrun)
    have hb₁ : w₁.body σ = .supervise a pc := hb
    have hn₁ : (w₁.body σ).awaits σ = none := hb₁ ▸ hn
    have hreturns₁ : PumpReturns cfg w₀ e w₁ σ := (hreturns hrun).rpc
    apply hfail.trans
    simp only
    split
    · have hlt : σ < w₁.tasks.length := World.lt_of_body_ne (by simp [hb₁])
      have hhalts : Halts cfg w₀ e (w₁.finish σ) :=
        .giveUp hact (hbody.symm.trans hb) (World.body_setBody_self _ hlt) rfl hreturns₁.finish
      exact (finish hact hn₁).tail (.halt hrun hhalts)
    · exact finish hact hn₁
    · split
      · exact goto hact (hb₁ ▸ .backOff hn hreturns₁)
      · exact .single (.reconnect hact hb₁ hn hrun (.inl hreturns₁))
  · exact finish hact (hb ▸ hn)

/-- Entering `recv` of a connection that nobody reads, the task waits there. Otherwise `_pump` has
raised. -/
theorem read {pc : SuperviseAt} {a : ℕ} (hact : Acts w₀ e σ)
    (hb : w.body σ = .supervise a pc) (hn : (Body.supervise a pc).awaits σ = none)
    (hbody : w.body σ = w₀.body σ)
    (hgo : Goes cfg w₀ e w σ (w.body σ) (.supervise attempt (.reading c))) :
    Moves cfg w₀ e w (w.read cfg σ attempt c) := by
  unfold World.read
  split
  · rename_i hother
    exact pumpReturned hact hb hn hbody (fun _ => .concurrent hother) _
  · exact goto hact hgo

/-- At the loop head of `_supervise` the task enters the pump of its connection, or `_pump` has
raised at once. -/
theorem beginPump {pc : SuperviseAt} {a : ℕ} (hact : Acts w₀ e σ)
    (hb : w.body σ = .supervise a pc) (hn : (Body.supervise a pc).awaits σ = none)
    (hbody : w.body σ = w₀.body σ) (henter : Enters w₀ e w σ (w.body σ)) :
    Moves cfg w₀ e w (w.beginPump cfg σ attempt) := by
  unfold World.beginPump
  split
  · rename_i hrun
    split
    · rename_i hconn
      exact pumpReturned hact hb hn hbody (fun _ => .absent hconn) _
    · rename_i c hconn
      split
      · exact read hact hb hn hbody (.enter henter hrun hconn)
      · rename_i hdetached
        exact pumpReturned hact hb hn hbody (fun _ => .detached hconn (by simpa using hdetached)) _
  · exact finish hact (hb ▸ hn)

end Moves

/-- What `perform` can do: a request cannot be framed, finds no open connection, or is sent on the
one that is open. -/
theorem perform_cases (cfg : Config) (w : World) (owner : Owner) (op : Operation) :
    (∃ err, op.requestFrame cfg.dialect (w.rpc.draw op).pending.counter = .error err ∧
      w.perform cfg owner op = ({ w with rpc := w.rpc.draw op }, none)) ∨
    (∃ call, call.op = op ∧ call.owner = owner ∧ Framed cfg w call ∧ call.conn = none ∧
      w.perform cfg owner op = (w.refused call, none)) ∨
    (∃ call c, call.op = op ∧ call.owner = owner ∧ Framed cfg w call ∧ call.conn = some c ∧
      w.perform cfg owner op = (w.launched call c, some w.rpc.calls.length)) := by
  have hconn : World.sendConn { w with rpc := w.rpc.draw op } = w.sendConn := rfl
  cases hframe : op.requestFrame cfg.dialect (w.rpc.draw op).pending.counter with
  | error err =>
    refine .inl ⟨err, rfl, ?_⟩
    simp [World.perform, hframe]
  | ok fk =>
    obtain ⟨frame, key⟩ := fk
    set call : Call := ⟨op, owner, key, frame, World.timeoutOf cfg op, w.sendConn, .sending⟩
      with hcall
    have hframed : Framed cfg w call := ⟨hframe, rfl, rfl⟩
    cases hsend : w.sendConn with
    | none =>
      refine .inr (.inl ⟨call, rfl, rfl, hframed, hsend, ?_⟩)
      simp [World.perform, hframe, World.launch, hconn, hsend, World.refused, hcall]
    | some c =>
      refine .inr (.inr ⟨call, c, rfl, rfl, hframed, hsend, ?_⟩)
      simp [World.perform, hframe, World.launch, hconn, hsend, World.launched, hcall]

/-- A label that frames a call sends it. -/
theorem Framed.sends {call : Call} (h : Framed cfg w call) :
    (call.op.requestFrame cfg.dialect (w.rpc.draw call.op).pending.counter).isOk = true := by
  rw [h.frame]
  rfl

/-- A `subscribe()` can always be framed, as its parameters name the channel. -/
theorem requestFrame_subscribe (d : Dialect) (channel : String) (params : Option Params)
    (persist : Bool) (n : ℕ) :
    ∃ fk, (Operation.subscribe channel params persist).requestFrame d n = .ok fk := by
  cases d <;>
    simp [Operation.requestFrame, Dialect.requestFrame, krakenRequestFrame, okxRequestFrame,
      subscribeOps]

/-- Where a replay stands depends on the connections only. -/
theorem Replays.congr {b : Body} {entry : Entry} {rest : List Entry} (h : w'.conns = w.conns)
    (hr : Replays w b entry rest) : Replays w' b entry rest := by
  cases hr with
  | first hconn hat hopen => exact .first (h ▸ hconn) hat hopen
  | next => exact .next

namespace Moves

/-- The loop of the replay sends its next entry as a call of the task, refuses it, or is through. -/
theorem replayNext {pc : SuperviseAt} {a : ℕ} {entries : List Entry} (hact : Acts w₀ e σ)
    (hb : w.body σ = .supervise a pc) (hn : (Body.supervise a pc).awaits σ = none)
    (hbody : w.body σ = w₀.body σ) (hrpc : w.rpc = w₀.rpc)
    (hnil : entries = [] → Enters w₀ e w σ (w.body σ))
    (hcons : ∀ entry rest, entries = entry :: rest →
      Replays w (w.body σ) entry rest ∧ Sends cfg w₀ e w) :
    Moves cfg w₀ e w (w.replayNext cfg σ attempt entries) := by
  unfold World.replayNext
  cases entries with
  | nil => exact beginPump hact hb hn hbody (hnil rfl)
  | cons entry rest =>
    obtain ⟨channel, params⟩ := entry
    obtain ⟨hreplays, hsends⟩ := hcons _ _ rfl
    simp only
    rcases perform_cases cfg w (.replay σ) (.subscribe channel (some params) false) with
      ⟨err, herr, -⟩ | ⟨call, hop, howner, hframed, hconn, hperform⟩ |
      ⟨call, c, hop, howner, hframed, hconn, hperform⟩
    · obtain ⟨fk, hfk⟩ := requestFrame_subscribe cfg.dialect channel (some params) false
        (w.rpc.draw (.subscribe channel (some params) false)).pending.counter
      rw [hfk] at herr
      cases herr
    · rw [hperform]
      have hfitting : Fitting call :=
        ⟨fun _ _ => ⟨channel, params, hop⟩, fun _ h => by rw [howner] at h; cases h⟩
      have hrefuse : Moves cfg w₀ e w (w.refused call) :=
        .single (.refuse hrpc hframed (hop ▸ .replay) hfitting hconn)
      refine hrefuse.trans (goto hact ?_)
      have hsend : (w.refused call).sendConn = none := hframed.conn ▸ hconn
      have hconns : (w.refused call).conns = w.conns := rfl
      exact .gap (hreplays.congr hconns) hsend
    · rw [hperform]
      exact .single (.call hact hframed (hop ▸ .replay) hconn (.replay howner hop hreplays) hsends)

end Moves

/-! ## Dispatch -/

/-- `resolve` settles at most the slot of the frame. -/
theorem PendingRequests.resolve_cases {d : Dialect} {p p' : PendingRequests} {f : Inbound}
    {consumed : Bool} (h : p.resolve f (d.responseKey f.fields) = .ok (consumed, p')) :
    p' = p ∨ ∃ key, d.slotOf f = some key ∧ p' = (p.settle key f).2 := by
  unfold PendingRequests.resolve at h
  split at h
  · rename_i hpong
    have hp : p.settle pongKey f = (consumed, p') := Except.ok.inj h
    exact .inr ⟨pongKey, by simp [Dialect.slotOf, hpong], by rw [hp]⟩
  · rename_i hpong
    split at h
    · rename_i hnull
      split at h
      · cases h
      · rename_i key hkey
        split at h
        · have hp : p.settle key f = (consumed, p') := Except.ok.inj h
          exact .inr ⟨key, by simp [Dialect.slotOf, hpong, hnull, hkey], by rw [hp]⟩
        · have hp : (false, p) = (consumed, p') := Except.ok.inj h
          exact .inl (Prod.mk.inj hp).2.symm
    · have hp : (_, p) = (consumed, p') := Except.ok.inj h
      exact .inl (Prod.mk.inj hp).2.symm

namespace Moves

/-- The handlers of a frame are run by the task, one callback after the other. -/
theorem runHandlers {f : Inbound} {cb : Callback} {hs : List ℕ} {wildcard : Bool}
    (hact : Acts w₀ e σ) (hb : w.body σ = .supervise attempt (.inCallback c f cb))
    (hbody : w.body σ = w₀.body σ)
    (hcb : cb = .onMessage →
      hs ≠ [] ∨ (wildcard = true ∧ (w.handlers.lookup "*").getD [] ≠ []) →
      Resolves w₀ e σ c f ∧ w₀.Listening cfg f ∧
        ∃ p, w₀.rpc.pending.resolve f (cfg.dialect.responseKey f.fields) = .ok (false, p)) :
    Moves cfg w₀ e w (w.runHandlers cfg σ attempt c f hs wildcard) := by
  have hread : Moves cfg w₀ e w (w.read cfg σ attempt c) := read hact hb rfl hbody (hb ▸ .read)
  unfold World.runHandlers
  split
  · refine goto hact (hb ▸ .handle ?_)
    intro hmsg
    exact hcb hmsg (.inl (by simp))
  · split
    · rename_i hwild
      split
      · rename_i h rest hrest
        refine goto hact (hb ▸ .handle ?_)
        intro hmsg
        exact hcb hmsg (.inr ⟨hwild, by simp [hrest]⟩)
      · exact hread
    · exact hread

/-- `_deliver` hands the frame to its handlers, goes back to `recv`, or raises. -/
theorem deliver {f : Inbound} (hact : Acts w₀ e σ)
    (hb : w.body σ = .supervise attempt (.inCallback c f .onMessage))
    (hbody : w.body σ = w₀.body σ) (hres : Resolves w₀ e σ c f)
    (hhandlers : w.handlers = w₀.handlers)
    (hpush : ∃ p, w₀.rpc.pending.resolve f (cfg.dialect.responseKey f.fields) =
      .ok (false, p))
    (hraises : ∀ err, w.handlersOf (cfg.dialect.channelOf f.fields) = .error err →
      PumpReturns cfg w₀ e w σ) : Moves cfg w₀ e w (w.deliver cfg σ attempt c f) := by
  unfold World.deliver
  simp only
  split
  · exact read hact hb rfl hbody (hb ▸ .read)
  · rename_i hwanted
    split
    · rename_i err hof
      exact pumpReturned hact hb rfl hbody (fun _ => hraises err hof) _
    · rename_i hs hof
      apply runHandlers hact hb hbody
      intro _ hlisten
      have hof₀ : w₀.handlersOf (cfg.dialect.channelOf f.fields) = .ok hs := by
        rw [← hof]
        simp [World.handlersOf, hhandlers]
      refine ⟨hres, ⟨hhandlers ▸ hwanted, hs, hof₀, ?_⟩, hpush⟩
      rcases hlisten with hs' | ⟨-, hwild⟩
      · exact .inl hs'
      · exact .inr (hhandlers ▸ hwild)

/-- `_dispatch` from `resolve` on settles a future, and delivers the frame if it is no reply. -/
theorem dispatch {f : Inbound} (hb : w.body σ = .supervise attempt (.inCallback c f .onMessage))
    (hres : Resolves w e σ c f) (hact : Acts w e σ) :
    Moves cfg w e w (w.dispatch cfg σ attempt c f) := by
  have htask : e.task = some σ := by rcases hres.event with rfl | rfl <;> rfl
  have haborts (hraises : w.dispatchRaises cfg f = true) : w.pumpAborts cfg σ e = true := by
    rcases hres.event with rfl | rfl <;> simp [World.pumpAborts, hb, hraises]
  have hpumps : (w.body σ).pumps = some c := by rw [hb]; rfl
  unfold World.dispatch
  split
  · rename_i fields hraw
    set w₁ : World :=
      w.modifyConn c (fun conn => { conn with resolved := conn.resolved ++ [f] })
    have h₁ : Moves cfg w e w w₁ := alter (.resolve hres)
    have hb₁ : w₁.body σ = .supervise attempt (.inCallback c f .onMessage) := hb
    have hsock : w₁.sock c = w.sock c := World.sock_modifyConn_of_sock (by intro conn; rfl) c
    apply h₁.trans
    simp only
    split
    · rename_i err hresolve
      have hresolve₀ : w.rpc.pending.resolve f (cfg.dialect.responseKey f.fields) =
        .error err := hresolve
      have hraises : w.dispatchRaises cfg f = true := by
        simp only [World.dispatchRaises, hraw, hresolve₀]
      exact pumpReturned hact hb₁ rfl rfl
        (fun _ => .aborts htask (haborts hraises) hpumps rfl hsock) _
    · rename_i consumed pending hresolve
      set w₂ : World := { w₁ with rpc := { w₁.rpc with pending := pending } }
      have hb₂ : w₂.body σ = .supervise attempt (.inCallback c f .onMessage) := hb
      have h₂ : Moves cfg w e w₁ w₂ := by
        rcases PendingRequests.resolve_cases hresolve with rfl | ⟨key, hslot, rfl⟩
        · exact .refl
        · exact .single (.settle hres rfl rfl hslot)
      apply h₂.trans
      split
      · exact read hact hb₂ rfl rfl (hb₂ ▸ .read)
      · rename_i hconsumed
        have hfalse : consumed = false := by simpa using hconsumed
        have hpush : w.rpc.pending.resolve f (cfg.dialect.responseKey f.fields) =
          .ok (false, pending) := hfalse ▸ hresolve
        refine deliver hact hb₂ rfl hres rfl ⟨pending, hpush⟩ ?_
        intro err hof
        have hof₀ : w.handlersOf (cfg.dialect.channelOf f.fields) = .error err := hof
        have hraises : w.dispatchRaises cfg f = true := by
          simp [World.dispatchRaises, hraw, hpush, hof₀, Except.isOk, Except.toBool]
        exact .aborts htask (haborts hraises) hpumps rfl hsock
  · rename_i hraw
    have hraises : w.dispatchRaises cfg f = true := by
      unfold World.dispatchRaises
      split
      · rename_i fields hobject
        exact absurd hobject (hraw fields)
      · rfl
    exact pumpReturned hact hb rfl rfl (fun _ => .aborts htask (haborts hraises) hpumps rfl rfl) _

/-! ## The heartbeat task -/

/-- At the loop head of `_heartbeat_loop` the task sleeps or ends. -/
theorem heartbeatLoop {pc : HeartbeatAt} (hact : Acts w₀ e τ) (hb : w.body τ = .heartbeat pc)
    (hn : (Body.heartbeat pc).awaits τ = none) :
    Moves cfg w₀ e w (w.heartbeatLoop cfg τ) := by
  unfold World.heartbeatLoop
  split
  · exact goto hact (hb ▸ .sleep hn)
  · exact finish hact (hb ▸ hn)

/-- A heartbeat ping begins as a call of its task, or is refused. -/
theorem heartbeatPing {wake : ℚ} (hact : Acts w e τ) (he : e = .wake τ)
    (hb : w.body τ = .heartbeat (.sleeping wake)) :
    Moves cfg w e w (w.heartbeatPing cfg τ) := by
  have hbegins : Begins w e .ping := he ▸ .heartbeat hb
  unfold World.heartbeatPing
  split
  · rename_i hrun
    simp only
    rcases perform_cases cfg w (.heartbeat τ) .ping with
      ⟨err, herr, -⟩ | ⟨call, hop, howner, hframed, hconn, hperform⟩ |
      ⟨call, c, hop, howner, hframed, hconn, hperform⟩
    · simp [Operation.requestFrame] at herr
    · rw [hperform]
      have hfitting : Fitting call :=
        ⟨fun _ h => (by rw [howner] at h; cases h), fun _ _ => hop⟩
      have hrefuse : Moves cfg w e w (w.refused call) :=
        .single (.refuse rfl hframed (hop ▸ hbegins) hfitting hconn)
      have hb' : (w.refused call).body τ = .heartbeat (.sleeping wake) := hb
      exact hrefuse.trans (goto hact (hb' ▸ .rest rfl))
    · rw [hperform]
      have hsends : w.sends cfg e = true := by simpa [he, World.sends, hb] using hrun
      exact .single (.call hact hframed (hop ▸ hbegins) hconn (hb ▸ .heartbeat howner hop rfl)
        (.first hsends (by simp [he]) rfl))
  · exact finish hact (by rw [hb]; rfl)

end Moves

/-! ## Ends of calls -/

/-- The end of a call changes the correlator and the registry only. -/
theorem endCall_eq (cfg : Config) (w : World) (k : ℕ) (outcome : Outcome) :
    w.endCall cfg k outcome =
      { w with
        rpc := w.rpc.finish k outcome
        subscriptions := (w.endCall cfg k outcome).subscriptions } := by
  unfold World.endCall
  split
  · rename_i hnone
    simp [Rpc.finish, hnone]
  · cases outcome with
    | reply f =>
      simp only
      split
      · unfold World.acknowledge
        split <;> rfl
      · rfl
    | raised exc => rfl

/-- The end of a call touches no task: the one that awaits it goes on afterwards. -/
@[simp] theorem tasks_endCall (cfg : Config) (w : World) (k : ℕ) (outcome : Outcome) :
    (w.endCall cfg k outcome).tasks = w.tasks := by
  rw [endCall_eq]

/-- It touches no connection. -/
@[simp] theorem conns_endCall (cfg : Config) (w : World) (k : ℕ) (outcome : Outcome) :
    (w.endCall cfg k outcome).conns = w.conns := by
  rw [endCall_eq]

/-- The client still holds the connection that it held. -/
@[simp] theorem conn_endCall (cfg : Config) (w : World) (k : ℕ) (outcome : Outcome) :
    (w.endCall cfg k outcome).conn = w.conn := by
  rw [endCall_eq]

/-- The correlator after the end of a call. -/
theorem rpc_endCall (cfg : Config) (w : World) (k : ℕ) (outcome : Outcome) :
    (w.endCall cfg k outcome).rpc = w.rpc.finish k outcome := by
  rw [endCall_eq]

/-- So every task is where it was. -/
@[simp] theorem body_endCall (cfg : Config) (w : World) (k : ℕ) (outcome : Outcome) (τ : ℕ) :
    (w.endCall cfg k outcome).body τ = w.body τ :=
  congrFun (World.body_congr (tasks_endCall cfg w k outcome)) τ

/-- The end of a call and an update of a connection commute. -/
theorem endCall_modifyConn (cfg : Config) (w : World) (k : ℕ) (outcome : Outcome) (c : ℕ)
    (f : Connection → Connection) :
    (w.endCall cfg k outcome).modifyConn c f = (w.modifyConn c f).endCall cfg k outcome := by
  unfold World.endCall
  simp only [World.modifyConn_rpc]
  split
  · rfl
  · cases outcome with
    | reply f' =>
      simp only
      split
      · unfold World.acknowledge
        split <;> rfl
      · rfl
    | raised exc => rfl

/-- The owner of a call goes on without touching the correlator and the registry. -/
theorem resumeOwner_eq (cfg : Config) (w : World) (k : ℕ) (owner : Owner) (outcome : Outcome) :
    ∃ tasks conns, w.resumeOwner cfg k owner outcome =
      { w with tasks := tasks, conns := conns } := by
  unfold World.resumeOwner
  split
  · exact ⟨_, _, rfl⟩
  · split
    · split <;> exact ⟨_, _, rfl⟩
    · exact ⟨_, _, rfl⟩
  · split
    · split
      · split <;> exact ⟨_, _, rfl⟩
      · exact ⟨_, _, rfl⟩
    · exact ⟨_, _, rfl⟩
  · split
    · split
      · unfold World.heartbeatPinged World.heartbeatLoop
        repeat' split
        all_goals exact ⟨_, _, rfl⟩
      · exact ⟨_, _, rfl⟩
    · exact ⟨_, _, rfl⟩

/-- The task that goes on after a call leaves the correlator alone. -/
@[simp] theorem rpc_resumeOwner (cfg : Config) (w : World) (k : ℕ) (owner : Owner)
    (outcome : Outcome) : (w.resumeOwner cfg k owner outcome).rpc = w.rpc := by
  obtain ⟨tasks, conns, heq⟩ := resumeOwner_eq cfg w k owner outcome
  rw [heq]

/-- A call that ends had not ended. -/
theorem Ends.not_ended {k : ℕ} {call : Call} {outcome : Outcome} (h : Ends w e k call outcome) :
    call.phase.isEnded = false := by
  cases h with
  | sendFailed _ hphase => rw [hphase]; rfl
  | reply _ hphase => rw [hphase]; rfl
  | failed _ hphase => rw [hphase]; rfl
  | cancelled _ hphase => rw [hphase]; rfl
  | timeout _ hphase => rw [hphase]; rfl
  | callerCancelled _ _ hended => exact hended
  | taskCancelled _ _ hended => exact hended

/-- A coroutine that awaits a call is suspended in one of three places. -/
theorem Body.awaits_cases {b : Body} {owner : Owner} (h : b.awaits τ = some (owner, k)) :
    (owner = .callback τ ∧ ∃ a c f cb, b = .supervise a (.inCallbackCall c f cb k)) ∨
    (owner = .replay τ ∧ ∃ a rest, b = .supervise a (.replaying k rest)) ∨
    (owner = .heartbeat τ ∧ ∃ conn, b = .heartbeat (.pinging k conn)) := by
  unfold Body.awaits at h
  split at h
  · obtain ⟨rfl, rfl⟩ := Prod.mk.inj (Option.some.inj h)
    exact .inl ⟨rfl, _, _, _, _, rfl⟩
  · obtain ⟨rfl, rfl⟩ := Prod.mk.inj (Option.some.inj h)
    exact .inr (.inl ⟨rfl, _, _, rfl⟩)
  · obtain ⟨rfl, rfl⟩ := Prod.mk.inj (Option.some.inj h)
    exact .inr (.inr ⟨rfl, _, rfl⟩)
  · cases h

/-- What a step of `open()` makes of the client: `open()` is suspended at its next stage, it
raises, or it returns. -/
inductive Opens (cfg : Config) (w : World) (τ c : ℕ) : Event → World → Prop
  | connected : w.opening? τ = some (c, .connecting) → Opens cfg w τ c (.connected τ)
      ((w.modifyConn c (fun conn => conn.connect.write .auth)).setStage τ .sendingAuth)
  | sent {deadline : ℚ} : w.readByOther τ c = false → Opens cfg w τ c (.authSent τ)
      (w.setStage τ (.awaitingReply deadline))
  | raised {e : Event} : OpenRaises w τ c e → e ≠ .authReply τ →
      Opens cfg w τ c e (w.openFailed cfg τ)
  | refused {deadline : ℚ} {f : Inbound} {inbox : List Inbound} :
      w.opening? τ = some (c, .awaitingReply deadline) →
      w.conns[c]?.map Connection.inbox = some (f :: inbox) → OpenRaises w τ c (.authReply τ) →
      Opens cfg w τ c (.authReply τ)
        ((w.modifyConn c (fun conn => { conn with inbox := inbox })).openFailed cfg τ)
  | accepted {f : Inbound} {inbox : List Inbound} :
      w.conns[c]?.map Connection.inbox = some (f :: inbox) → OpenReturns w τ c (.authReply τ) →
      Opens cfg w τ c (.authReply τ)
        ((w.modifyConn c (fun conn => { conn with inbox := inbox })).opened cfg τ c)

/-- A step of `open()` is taken on the connection that the task opens. -/
theorem openStep_cases (htask : e.task = some τ) (h : w.openStep cfg τ e = some w') :
    ∃ c stage, w.opening? τ = some (c, stage) ∧ Opens cfg w τ c e w' := by
  have raised {c : ℕ} {stage : OpenStage} (hopening : w.opening? τ = some (c, stage))
      (hraises : OpenRaises w τ c e) (hne : e ≠ .authReply τ) (hw : w.openFailed cfg τ = w') :
      ∃ c stage, w.opening? τ = some (c, stage) ∧ Opens cfg w τ c e w' :=
    ⟨c, stage, hopening, hw ▸ .raised hraises hne⟩
  unfold World.openStep at h
  split at h
  · rename_i c τ' hopening
    cases htask
    cases h
    exact ⟨c, _, hopening, .connected hopening⟩
  · rename_i c τ' hopening
    cases htask
    exact raised hopening .connect (by simp) (Option.some.inj h)
  · rename_i c τ' hopening
    cases htask
    split at h
    · split at h
      · rename_i hother
        exact raised hopening (.concurrent hother) (by simp) (Option.some.inj h)
      · rename_i halone
        cases h
        exact ⟨c, _, hopening, .sent (by simpa using halone)⟩
    · cases h
  · rename_i c τ' hopening
    cases htask
    split at h
    · cases h
    · exact raised hopening .send (by simp) (Option.some.inj h)
  · rename_i c deadline τ' hopening
    cases htask
    split at h
    · rename_i f inbox hinbox
      have hreply : w.handshake? c = some (handshakeReply f.raw) := by
        obtain ⟨conn, hconn, hhead⟩ := Option.map_eq_some_iff.mp hinbox
        simp [World.handshake?, hconn, hhead]
      split at h
      · rename_i hok
        cases h
        exact ⟨c, _, hopening, .accepted hinbox ⟨rfl, ⟨deadline, hopening⟩, hok ▸ hreply⟩⟩
      · rename_i exc hexc
        cases h
        exact ⟨c, _, hopening, .refused hopening hinbox (.refused (hexc ▸ hreply))⟩
    · cases h
  · rename_i c deadline τ' hopening
    cases htask
    split at h
    · exact raised hopening .timeout (by simp) (Option.some.inj h)
    · cases h
  · rename_i c deadline τ' hopening
    cases htask
    split at h
    · exact raised hopening .closed (by simp) (Option.some.inj h)
    · cases h
  · cases h

/-- What a step makes of a task that is known to open a connection. -/
theorem opens_of_openStep {stage : OpenStage} (hopening : w.opening? τ = some (c, stage))
    (htask : e.task = some τ) (h : w.openStep cfg τ e = some w') : Opens cfg w τ c e w' := by
  obtain ⟨c', stage', hopening', hopens⟩ := openStep_cases htask h
  obtain ⟨rfl, -⟩ := Prod.mk.inj (Option.some.inj (hopening.symm.trans hopening'))
  exact hopens

/-- An `open()` that returns does not raise. -/
theorem OpenReturns.not_raises (h : OpenReturns w τ c e) : ¬OpenRaises w τ c e := by
  obtain ⟨rfl, -, hreply⟩ := h
  intro hraises
  cases hraises with
  | refused herror =>
    rw [hreply] at herror
    cases herror

/-- A step of a call in flight either lets it wait or ends it. -/
theorem callStep_cases (hcallNo : e.callNo = some k) (h : w.callStep cfg k e = some w') :
    ∃ call, w.rpc.calls[k]? = some call ∧ call.phase.isEnded = false ∧
      ((call.phase = .sending ∧ ∃ deadline, w' = { w with rpc := w.rpc.await k deadline }) ∨
        ∃ outcome, Ends w e k call outcome ∧ w' = w.conclude cfg k outcome) := by
  have ends {call : Call} {outcome : Outcome} (hcall : w.rpc.calls[k]? = some call)
      (hends : Ends w e k call outcome) (hw : w.conclude cfg k outcome = w') :
      ∃ call, w.rpc.calls[k]? = some call ∧ call.phase.isEnded = false ∧
        ((call.phase = .sending ∧ ∃ deadline, w' = { w with rpc := w.rpc.await k deadline }) ∨
          ∃ outcome, Ends w e k call outcome ∧ w' = w.conclude cfg k outcome) :=
    ⟨call, hcall, hends.not_ended, .inr ⟨outcome, hends, hw.symm⟩⟩
  unfold World.callStep at h
  split at h
  · cases h
  · rename_i call hcall
    split at h
    · split at h
      · rename_i hphase
        split at h
        · cases h
          exact ⟨call, hcall, by rw [hphase]; rfl, .inl ⟨hphase, _, rfl⟩⟩
        · cases h
      · rename_i hphase
        cases hcallNo
        split at h
        · cases h
        · rename_i hsock
          exact ends hcall (.sendFailed rfl hphase hsock) (Option.some.inj h)
      · rename_i deadline k' hphase
        cases hcallNo
        split at h
        · rename_i f hf
          exact ends hcall (.reply rfl hphase hf) (Option.some.inj h)
        · rename_i exc hf
          exact ends hcall (.failed rfl hphase hf) (Option.some.inj h)
        · rename_i hf
          exact ends hcall (.cancelled rfl hphase hf) (Option.some.inj h)
        · cases h
      · rename_i deadline k' hphase
        cases hcallNo
        split at h
        · rename_i hdue
          exact ends hcall (.timeout rfl hphase hdue.1 hdue.2) (Option.some.inj h)
        · cases h
      · cases h
      · rename_i k' hnot _ _
        cases hcallNo
        split at h
        · rename_i howner
          have hended : call.phase.isEnded = false := by
            cases hphase : call.phase with
            | sending => rfl
            | waiting deadline => rfl
            | ended outcome => exact absurd hphase (by grind)
          exact ends hcall (.callerCancelled rfl howner hended) (Option.some.inj h)
        · cases h
      · cases h
    · cases h

namespace Moves

/-- A call of the heartbeat task ends. -/
theorem heartbeatPinged {call : Call} {conn : Option ℕ} {outcome : Outcome}
    (hact : Acts w e τ) (hcall : w.rpc.calls[k]? = some call)
    (howner : call.owner.task = some τ) (hends : Ends w e k call outcome)
    (hb : w.body τ = .heartbeat (.pinging k conn)) :
    Moves cfg w e w ((w.endCall cfg k outcome).heartbeatPinged cfg τ conn outcome) := by
  have hfinish : Moves cfg w e w ((w.endCall cfg k outcome).finish τ) :=
    .single (.resume hact rfl hcall howner hends (hb ▸ .finish rfl))
  have hloop : Moves cfg w e w ((w.endCall cfg k outcome).heartbeatLoop cfg τ) := by
    unfold World.heartbeatLoop
    split
    · exact .single (.resume hact rfl hcall howner hends (hb ▸ .sleep))
    · exact hfinish
  have hrest {wake : ℚ} :
      Moves cfg w e w ((w.endCall cfg k outcome).setBody τ (.heartbeat (.resting wake))) :=
    .single (.resume hact rfl hcall howner hends (hb ▸ .rest))
  unfold World.heartbeatPinged
  split
  · exact hloop
  · split
    · rename_i c
      split
      · -- the socket is closed first, which the end of the call does not depend on
        rw [endCall_modifyConn]
        have halter : Moves cfg w e w (w.modifyConn c Connection.beginClose) :=
          alter .beginClose
        have hb' : (w.modifyConn c Connection.beginClose).body τ =
          .heartbeat (.pinging k (some c)) := hb
        exact halter.tail (.resume hact rfl hcall howner hends (hb' ▸ .close rfl))
      · exact hloop
    · exact hloop
  · exact hfinish
  · exact hrest

/-- A call ends and its owner goes on. -/
theorem conclude {call : Call} {outcome : Outcome} (hlinked : Linked w)
    (hcallNo : e.callNo = some k) (hcall : w.rpc.calls[k]? = some call)
    (hends : Ends w e k call outcome) :
    Moves cfg w e w (w.conclude cfg k outcome) := by
  unfold World.conclude
  simp only [hcall]
  cases htask : call.owner.task with
  | none =>
    have howner : call.owner = .application := by
      cases howner : call.owner <;> simp [howner, Owner.task] at htask ⊢
    rw [howner]
    exact .single (.endCall rfl hcall howner hends)
  | some τ =>
    have hact : Acts w e τ := .call hcallNo hcall htask
    rcases Body.awaits_cases (hlinked.awaited hcall hends.not_ended htask) with
      ⟨howner, a, c, f, cb, hb⟩ | ⟨howner, a, rest, hb⟩ | ⟨howner, conn, hb⟩
    · simp only [howner, World.resumeOwner, body_endCall, hb, if_true]
      exact .single (.resume hact rfl hcall htask hends (hb ▸ .callback))
    · simp only [howner, World.resumeOwner, body_endCall, hb, if_true]
      split
      · exact .single (.resume hact rfl hcall htask hends (hb ▸ .finish rfl))
      · exact .single (.resume hact rfl hcall htask hends (hb ▸ .replay))
    · simp only [howner, World.resumeOwner, body_endCall, hb, if_true]
      exact heartbeatPinged hact hcall htask hends hb

/-! ## `open()` -/

/-- When `open()` of a task returned, the acceptance is recorded, and a `start()` or a replay goes
on. -/
theorem opened (hact : Acts w₀ e τ) (hreturns : OpenReturns w₀ τ c e)
    (hbody : w.body τ = w₀.body τ) (hrpc : w.rpc = w₀.rpc)
    (hsubs : w.subscriptions = w₀.subscriptions) (hc : c < w.conns.length)
    (hheld : w.conn = w₀.conn) (hother : ∀ c' ≠ c, w.conns[c']? = w₀.conns[c']?) :
    Moves cfg w₀ e w (w.opened cfg τ c) := by
  obtain ⟨deadline, hopening⟩ : ∃ deadline, w.opening? τ = some (c, .awaitingReply deadline) := by
    simpa [World.opening?, hbody] using hreturns.stage
  unfold World.opened
  simp only
  set w₁ : World := w.modifyConn c (fun conn =>
    { conn with connectedAt := some w.now, registryAtOpen := w.subscriptions }) with hw₁
  have haccept : Moves cfg w₀ e w w₁ := alter (.accept hreturns hbody hsubs)
  apply haccept.trans
  obtain ⟨conn, hconn⟩ : ∃ conn, w.conns[c]? = some conn := ⟨_, List.getElem?_eq_getElem hc⟩
  have hconn₁ : w₁.conns[c]? =
      some { conn with connectedAt := some w.now, registryAtOpen := w.subscriptions } := by
    simp [hw₁, hconn]
  have hb₁ : w₁.body τ = w.body τ := rfl
  unfold World.opening? at hopening
  split at hopening
  · rename_i a c' stage hb
    obtain ⟨rfl, rfl⟩ := Prod.mk.inj (Option.some.inj hopening)
    simp only [hb₁, hb]
    refine replayNext hact (hb₁.trans hb) rfl (hb₁.trans hbody) hrpc ?_ ?_
    · intro hnil
      rw [hb₁, hb]
      exact .accepted hconn₁ rfl hnil
    · intro entry rest hentries
      have hsends : w₀.sends cfg e = true := by
        have hsubs₀ : w₀.subscriptions = entry :: rest := hsubs.symm.trans hentries
        simp [World.sends, hreturns.event, ← hbody, hb, hreturns.reply, hsubs₀]
      have hother₁ (c'' : ℕ) (hne : c'' ≠ c') : w₁.conns[c'']? = w₀.conns[c'']? := by
        rw [← hother c'' hne]
        exact List.getElem?_modify_ne _ _ (Ne.symm hne)
      rw [hb₁, hb]
      exact ⟨.first hconn₁ rfl hentries, .accepted hsends hreturns hheld hconn₁ rfl hother₁⟩
  · rename_i c' stage hb
    obtain ⟨rfl, rfl⟩ := Prod.mk.inj (Option.some.inj hopening)
    simp only [hb₁, hb]
    unfold World.started
    have hmoves : Moves cfg w₀ e w₁ ({ w₁.finish τ with
        superviseTask := some (w₁.finish τ).tasks.length }.spawn (.supervise 0 .ready)) :=
      .single (.supervise hreturns (hb₁.trans hb) (hbody.symm.trans hb₁.symm) hconn₁ rfl hsubs)
    simp only
    split
    · exact hmoves
    · exact .tail hmoves (.heartbeat hreturns (hbody.symm.trans hb))
  · cases hopening

/-- When `open()` of a task raised, a `start()` ends, and a reconnect enters the pump. -/
theorem openFailed {stage : OpenStage} (hact : Acts w₀ e τ)
    (hopening : w.opening? τ = some (c, stage)) (hraises : OpenRaises w₀ τ c e)
    (hbody : w₀.body τ = w.body τ) (hsock : w.sock c = w₀.sock c) :
    Moves cfg w₀ e w (w.openFailed cfg τ) := by
  unfold World.openFailed
  unfold World.opening? at hopening
  split at hopening
  · rename_i a c' stage' hb
    obtain ⟨rfl, rfl⟩ := Prod.mk.inj (Option.some.inj hopening)
    simp only [hb]
    exact beginPump hact hb rfl hbody.symm (hb ▸ .refused hraises (hbody.trans hb) hsock)
  · rename_i c' stage' hb
    simp only [hb]
    exact finish hact (by rw [hb]; rfl)
  · cases hopening

/-- `_authenticate` of a task takes a frame from the inbox and refuses the handshake. -/
theorem refused {stage : OpenStage} {inbox : List Inbound} (hact : Acts w (.authReply τ) τ)
    (hopening : w.opening? τ = some (c, stage)) (hraises : OpenRaises w τ c (.authReply τ)) :
    Moves cfg w (.authReply τ) (w.modifyConn c (fun conn => { conn with inbox := inbox }))
      ((w.modifyConn c (fun conn => { conn with inbox := inbox })).openFailed cfg τ) := by
  apply openFailed hact (w := w.modifyConn c (fun conn => { conn with inbox := inbox })) hopening
    hraises rfl
  apply World.sock_modifyConn_of_sock
  intro conn
  rfl

/-- `_authenticate` of a task takes a frame from the inbox and accepts the handshake. -/
theorem accepted {f : Inbound} {inbox : List Inbound} (hact : Acts w (.authReply τ) τ)
    (hinbox : w.conns[c]?.map Connection.inbox = some (f :: inbox))
    (hreturns : OpenReturns w τ c (.authReply τ)) :
    Moves cfg w (.authReply τ) (w.modifyConn c (fun conn => { conn with inbox := inbox }))
      ((w.modifyConn c (fun conn => { conn with inbox := inbox })).opened cfg τ c) := by
  have hc : c < (w.modifyConn c (fun conn => { conn with inbox := inbox })).conns.length := by
    by_contra hlt
    have hnone : w.conns[c]? = none := List.getElem?_eq_none (by simpa using hlt)
    simp [hnone] at hinbox
  refine opened hact hreturns rfl rfl rfl hc rfl ?_
  intro c' hne
  exact World.getElem?_modifyConn_of_ne _ hne

/-- `open()` of a task is suspended at its next stage. -/
theorem setStage {stage : OpenStage} (hact : Acts w₀ e τ) :
    Moves cfg w₀ e w (w.setStage τ stage) := by
  unfold World.setStage
  split
  · rename_i hb
    exact goto hact (hb ▸ .reopen)
  · rename_i hb
    exact goto hact (hb ▸ .start)
  · exact .refl

/-! ## `stop()` -/

/-- At its end `stop()` drops the connection before it cancels the futures. -/
theorem stopFinish (hact : Acts w₀ e τ) (hn : (w.body τ).awaits τ = none)
    (hstop : (w.running = false ∧ e = .stop) ∨ ∃ τ pc, Acts w₀ e τ ∧ w.body τ = .stop pc) :
    Moves cfg w₀ e w (w.stopFinish τ) := by
  have hdrop : Moves cfg w₀ e w { w with conn := none } := .single (.drop hstop)
  have hcancel := hdrop.tail (.cancelAll rfl)
  exact hcancel.trans (finish hact hn)

/-- Whether `stop()` may take its next step. -/
def Stopping (w : World) (e : Event) (τ : ℕ) : Prop :=
  (∃ pc, w.body τ = .stop pc) ∨ (w.body τ = .finished ∧ w.running = false ∧ e = .stop)

/-- A task of `stop()` awaits no call, so it may go on. -/
theorem Stopping.awaits (h : Stopping w e τ) : (w.body τ).awaits τ = none := by
  rcases h with ⟨pc, hb⟩ | ⟨hb, -⟩ <;> rw [hb] <;> rfl

/-- Such a task is what may drop `_conn`. -/
theorem Stopping.drop (h : Stopping w e τ) (hact : Acts w₀ e τ) :
    (w.running = false ∧ e = .stop) ∨ ∃ τ pc, Acts w₀ e τ ∧ w.body τ = .stop pc := by
  rcases h with ⟨pc, hb⟩ | ⟨-, hrun, he⟩
  · exact .inr ⟨τ, pc, hact, hb⟩
  · exact .inl ⟨hrun, he⟩

/-- `stop()` from the closing of the connection on. -/
theorem stopClose (hact : Acts w₀ e τ) (hstop : Stopping w e τ) :
    Moves cfg w₀ e w (w.stopClose τ) := by
  unfold World.stopClose
  split
  · exact stopFinish hact hstop.awaits (hstop.drop hact)
  · rename_i c hconn
    split
    · have halter : Moves cfg w₀ e w (w.modifyConn c Connection.beginClose) := alter .beginClose
      have hstop' : Stopping (w.modifyConn c Connection.beginClose) e τ := hstop
      exact halter.trans (goto hact (.stop hstop'))
    · rename_i hclosed
      have halter : Moves cfg w₀ e w (w.modifyConn c Connection.detach) :=
        alter (.detach (by simpa using hclosed))
      have hstop' : Stopping (w.modifyConn c Connection.detach) e τ := hstop
      exact halter.trans (stopFinish hact hstop'.awaits (hstop'.drop hact))

/-- `stop()` cancels a task and awaits it. -/
theorem stopAwait {σ : ℕ} {pc : StopAt} (hact : Acts w₀ e τ) (hstop : Stopping w e τ) :
    Moves cfg w₀ e w ((w.requestCancel σ).setBody τ (.stop pc)) := by
  have hcancel : Moves cfg w₀ e w (w.requestCancel σ) := .single (.cancelTask σ)
  refine hcancel.trans (goto hact ?_)
  rw [World.body_requestCancel]
  exact .stop hstop

/-- From the heartbeat task on, `stop()` cancels and awaits that task, or goes on to the
connection. -/
theorem stopHeartbeat {heartbeat : Option ℕ} (hact : Acts w₀ e τ) (hstop : Stopping w e τ) :
    Moves cfg w₀ e w (w.stopHeartbeat τ heartbeat) := by
  unfold World.stopHeartbeat
  split
  · exact stopClose hact hstop
  · exact stopAwait hact hstop

/-- Up to its first suspension, `stop()` switches the client off and cancels a task. -/
theorem beginStop (hrun : w.running = true) : Moves cfg w .stop w w.beginStop := by
  unfold World.beginStop
  simp only
  have hhalt : Moves cfg w .stop w { w with running := false, shutdown := true } :=
    .single (.halt hrun (.stop rfl rfl))
  have hspawn := hhalt.tail (.stop rfl)
  apply hspawn.trans
  have hstop : Stopping (World.spawn { w with running := false, shutdown := true } .finished)
      .stop w.tasks.length := .inr ⟨World.body_spawn_self _ _, rfl, rfl⟩
  split
  · exact stopHeartbeat .stop hstop
  · exact stopAwait .stop hstop

/-! ## Labels -/

/-- One step of `open()` changes the connection that it opens, and its task gets to the next
stage. -/
theorem openStep (hact : Acts w e τ) (htask : e.task = some τ)
    (h : w.openStep cfg τ e = some w') : Moves cfg w e w w' := by
  obtain ⟨c, stage, hopening, hopens⟩ := openStep_cases htask h
  cases hopens with
  | connected hconnecting =>
    have hconnect : Moves cfg w (.connected τ) w
        (w.modifyConn c (fun conn => conn.connect.write .auth)) :=
      alter (.connect rfl rfl hconnecting)
    exact hconnect.trans (setStage hact)
  | sent => exact setStage hact
  | raised hraises => exact openFailed hact hopening hraises rfl rfl
  | @refused deadline f inbox _ hinbox hraises =>
    have hpop : Moves cfg w (.authReply τ) w
        (w.modifyConn c (fun conn => { conn with inbox := inbox })) :=
      alter (.pop (.inr rfl) rfl hinbox)
    exact hpop.trans (refused hact hopening hraises)
  | @accepted f inbox hinbox hreturns =>
    have hpop : Moves cfg w (.authReply τ) w
        (w.modifyConn c (fun conn => { conn with inbox := inbox })) :=
      alter (.pop (.inr rfl) rfl hinbox)
    exact hpop.trans (accepted hact hinbox hreturns)

/-- One step of a call in flight. -/
theorem callStep (hlinked : Linked w) (hcallNo : e.callNo = some k)
    (h : w.callStep cfg k e = some w') : Moves cfg w e w w' := by
  obtain ⟨call, hcall, -, ⟨hphase, deadline, rfl⟩ | ⟨outcome, hends, rfl⟩⟩ :=
    callStep_cases hcallNo h
  · exact .single (.await hcall hphase)
  · exact conclude hlinked hcallNo hcall hends

/-- `recv` returns a frame to the pump. -/
theorem recvStep (h : w.recvStep cfg σ = some w') : Moves cfg w (.recv σ) w w' := by
  have hact : Acts w (.recv σ) σ := .task rfl
  unfold World.recvStep at h
  split at h
  · rename_i attempt c hb
    split at h
    · rename_i f inbox hinbox
      set w₁ : World := w.modifyConn c (fun conn => { conn with inbox := inbox })
      have hpop : Moves cfg w (.recv σ) w w₁ := alter (.pop (.inl rfl) rfl hinbox)
      have hb₁ : w₁.body σ = .supervise attempt (.reading c) := hb
      simp only at h
      split at h
      · split at h
        · have hw : w₁ = w' := Option.some.inj h
          exact hw ▸ hpop
        · rename_i hraw
          cases h
          have haborts : w.pumpAborts cfg σ (.recv σ) = true := by
            simp [World.pumpAborts, hb, hinbox, hraw]
          have hsock : w₁.sock c = w.sock c := World.sock_modifyConn_of_sock (by intro conn; rfl) c
          exact hpop.trans (pumpReturned hact hb₁ rfl rfl
            (fun _ => .aborts rfl haborts (by rw [hb]; rfl) rfl hsock) _)
        · cases h
          exact .single (.take rfl rfl hb hinbox)
      · rename_i hrun
        cases h
        exact hpop.trans (pumpReturned hact hb₁ rfl rfl (fun h => absurd h hrun) _)
    · cases h
  · cases h

/-- The pump notices that the socket is closed. -/
theorem socketEndStep (h : w.socketEndStep cfg σ = some w') :
    Moves cfg w (.socketEnd σ) w w' := by
  have hact : Acts w (.socketEnd σ) σ := .task rfl
  unfold World.socketEndStep at h
  split at h
  · rename_i attempt c hb
    have hpumps : (w.body σ).pumps = some c := by rw [hb]; rfl
    split at h
    · rename_i hsock
      cases h
      exact pumpReturned hact hb rfl rfl (fun _ => .closed hpumps rfl hsock) _
    · rename_i hsock
      cases h
      exact pumpReturned hact hb rfl rfl (fun _ => .closed hpumps rfl hsock) _
    · cases h
  · cases h

/-- A callback awaits a call of its own client. -/
theorem callbackCallStep {op : Operation} (h : w.callbackCallStep cfg σ op = some w') :
    Moves cfg w (.callbackCall σ op) w w' := by
  have hact : Acts w (.callbackCall σ op) σ := .task rfl
  unfold World.callbackCallStep at h
  split at h
  · rename_i attempt c f cb hb
    rcases perform_cases cfg w (.callback σ) op with
      ⟨err, herr, hperform⟩ | ⟨call, hop, howner, hframed, hconn, hperform⟩ |
      ⟨call, c, hop, howner, hframed, hconn, hperform⟩
    · rw [hperform] at h
      cases h
      exact .single (.draw op)
    · rw [hperform] at h
      cases h
      have hfitting : Fitting call := by constructor <;> simp [howner]
      exact .single (.refuse rfl hframed (hop ▸ .callback) hfitting hconn)
    · rw [hperform] at h
      cases h
      have hsends : w.sends cfg (.callbackCall σ op) = true := hop ▸ hframed.sends
      exact .single (.call hact hframed (hop ▸ .callback) hconn (hb ▸ .callback howner rfl)
        (.first hsends (by simp) rfl))
  · cases h

/-- A callback ends, and the dispatch goes on with what is left of it. -/
theorem callbackEndStep {result : CallbackResult} (h : w.callbackEndStep cfg σ result = some w') :
    Moves cfg w (.callbackEnd σ result) w w' := by
  have hact : Acts w (.callbackEnd σ result) σ := .task rfl
  unfold World.callbackEndStep at h
  split at h
  · rename_i attempt c f cb hb
    split at h
    · cases h
      have haborts : w.pumpAborts cfg σ (.callbackEnd σ .cancelled) = true := by
        simp [World.pumpAborts, hb]
      exact pumpReturned hact hb rfl rfl
        (fun _ => .aborts rfl haborts (by rw [hb]; rfl) rfl rfl) _
    · rename_i hresult
      cases h
      refine dispatch hb ⟨?_, attempt, hb⟩ hact
      cases result with
      | returned => exact .inl rfl
      | raised => exact .inr rfl
      | cancelled => exact absurd rfl hresult
    · cases h
      exact runHandlers hact hb rfl nofun
  · cases h

/-- The first step of a task enters the pump or the loop of the heartbeat. -/
theorem runStep (h : w.runStep cfg τ = some w') : Moves cfg w (.run τ) w w' := by
  have hact : Acts w (.run τ) τ := .task rfl
  unfold World.runStep at h
  split at h
  · rename_i attempt hb
    cases h
    exact beginPump hact hb rfl rfl (hb ▸ .ready)
  · rename_i hb
    cases h
    exact heartbeatLoop hact hb rfl
  · cases h

/-- A sleep of a task is over. -/
theorem wakeStep (h : w.wakeStep cfg τ = some w') : Moves cfg w (.wake τ) w w' := by
  have hact : Acts w (.wake τ) τ := .task rfl
  unfold World.wakeStep at h
  split at h
  · rename_i attempt wake hb
    split at h
    · split at h
      · rename_i hrun
        cases h
        exact .single (.reconnect hact hb rfl hrun (.inr ⟨wake, rfl⟩))
      · cases h
        exact finish hact (by rw [hb]; rfl)
    · cases h
  · rename_i attempt wake rest hb
    split at h
    · cases h
      refine replayNext hact hb rfl rfl rfl ?_ ?_
      · rintro rfl
        exact hb ▸ .replayed
      · rintro entry rest' rfl
        exact ⟨hb ▸ .next, .first (by simp [World.sends, hb]) (by simp) rfl⟩
    · cases h
  · rename_i wake hb
    split at h
    · cases h
      exact heartbeatPing hact rfl hb
    · cases h
  · rename_i wake hb
    split at h
    · cases h
      exact heartbeatLoop hact hb rfl
    · cases h
  · cases h

/-- When `ws.close()` returns, the socket has closed, and the task that awaited it goes on. -/
theorem closeDoneStep (h : w.closeDoneStep cfg τ = some w') :
    Moves cfg w (.closeDone τ) w w' := by
  have hact : Acts w (.closeDone τ) τ := .task rfl
  unfold World.closeDoneStep at h
  split at h
  · rename_i c hb
    cases h
    have hclose : Moves cfg w (.closeDone τ) w (w.modifyConn c Connection.endClose) :=
      alter .endClose
    have hb' : (w.modifyConn c Connection.endClose).body τ = .heartbeat (.closing c) := hb
    exact hclose.trans (heartbeatLoop hact hb' rfl)
  · rename_i c hb
    cases h
    have hclose : Moves cfg w (.closeDone τ) w (w.modifyConn c Connection.endClose) :=
      alter .endClose
    have hb' : (w.modifyConn c Connection.endClose).body τ = .stop (.closing c) := hb
    exact hclose.trans (stopFinish hact (by rw [hb']; rfl) (.inr ⟨τ, _, hact, hb'⟩))
  · cases h

/-- A task that `stop()` awaits has ended. -/
theorem stopStep (h : w.stopStep τ = some w') : Moves cfg w (.stopStep τ) w w' := by
  have hact : Acts w (.stopStep τ) τ := .task rfl
  unfold World.stopStep at h
  split at h
  · rename_i σ heartbeat hb
    split at h
    · cases h
    · cases h
      exact stopHeartbeat hact (.inl ⟨_, hb⟩)
  · rename_i η hb
    split at h
    · cases h
    · cases h
      exact stopClose hact (.inl ⟨_, hb⟩)
  · cases h

/-- A `CancelledError` is thrown into a task. -/
theorem cancelStep (hlinked : Linked w) (h : w.cancelStep cfg τ = some w') :
    Moves cfg w (.deliverCancel τ) w w' := by
  have hact : Acts w (.deliverCancel τ) τ := .task rfl
  have hend {owner : Owner} {k : ℕ} {b : Body} (htask : owner.task = some τ)
      (hawaits : (w.body τ).awaits τ = some (owner, k))
      (hresumes : Resumes τ k (.raised .cancelledError) (w.body τ) b) :
      Moves cfg w (.deliverCancel τ) w
        ((w.endCall cfg k (.raised .cancelledError)).setBody τ b) := by
    obtain ⟨call, hcall, howner, hended⟩ := hlinked.calls hawaits
    have htask' : call.owner.task = some τ := by rw [howner, htask]
    exact .single (.resume hact rfl hcall htask' (.taskCancelled rfl htask' hended) hresumes)
  unfold World.cancelStep at h
  split at h
  · rename_i attempt c hb
    cases h
    have haborts : w.pumpAborts cfg τ (.deliverCancel τ) = true := by
      simp [World.pumpAborts, hb]
    exact pumpReturned hact hb rfl rfl
      (fun _ => .aborts rfl haborts (by rw [hb]; rfl) rfl rfl) _
  · rename_i attempt c f cb hb
    cases h
    exact goto hact (by rw [hb]; exact .recancel)
  · rename_i attempt c f cb k hb
    cases h
    exact hend rfl (by rw [hb]; rfl) (hb ▸ .callback)
  · rename_i attempt k rest hb
    cases h
    exact hend rfl (by rw [hb]; rfl) (hb ▸ .finish rfl)
  · rename_i k conn hb
    cases h
    exact hend rfl (by rw [hb]; rfl) (hb ▸ .finish rfl)
  · rename_i attempt pc h₁ h₂ h₃ h₄ hb
    cases h
    apply finish hact
    rw [hb]
    cases pc with
    | inCallbackCall c f cb k => exact absurd rfl (h₃ _ _ _ _)
    | replaying k rest => exact absurd rfl (h₄ _ _)
    | _ => rfl
  · rename_i pc h₁ hb
    cases h
    apply finish hact
    rw [hb]
    cases pc with
    | pinging k conn => exact absurd rfl (h₁ _ _)
    | _ => rfl
  · cases h

/-! ## The environment and the application -/

/-- Time passes, which moves nothing but the clock. -/
theorem tickStep {d : ℚ} (h : step cfg w (.tick d) = some w') :
    Moves cfg w (.tick d) w w' := by
  simp only [step] at h
  split at h
  · rename_i hd
    cases h
    exact .single (.tick rfl hd)
  · cases h

/-- A frame arrives on an open socket. -/
theorem frameStep {f : Inbound} (h : step cfg w (.frame c f) = some w') :
    Moves cfg w (.frame c f) w w' := by
  simp only [step] at h
  split at h
  · rename_i hlive
    cases h
    exact alter (.arrive rfl hlive)
  · cases h

/-- A socket begins to close on the side of the network. -/
theorem sockClosingStep (h : step cfg w (.sockClosing c) = some w') :
    Moves cfg w (.sockClosing c) w w' := by
  simp only [step] at h
  cases h
  exact alter .beginClose

/-- A socket closes, or breaks off, and takes no frame from then on. -/
theorem sockClosedStep {clean : Bool} (h : step cfg w (.sockClosed c clean) = some w') :
    Moves cfg w (.sockClosed c clean) w w' := by
  simp only [step] at h
  split at h
  · cases h
    exact alter .close
  · cases h

/-- `start()` up to its first suspension. It returns at once on a running client. -/
theorem startStep (h : step cfg w .start = some w') : Moves cfg w .start w w' := by
  simp only [step] at h
  cases h
  unfold World.beginStart
  split
  · exact .refl
  · rename_i hrun
    exact .single (.start rfl rfl (by simpa using hrun))

/-- The application cancels a `start()` under way. -/
theorem cancelStartStep (h : step cfg w (.cancelStart τ) = some w') :
    Moves cfg w (.cancelStart τ) w w' := by
  simp only [step] at h
  split at h
  · rename_i c stage hb
    cases h
    exact finish (.task rfl) (by rw [hb]; rfl)
  · cases h

/-- `stop()` up to its first suspension. It returns at once on a client that does not run. -/
theorem stopCallStep (h : step cfg w .stop = some w') : Moves cfg w .stop w w' := by
  simp only [step] at h
  split at h
  · rename_i hrun
    cases h
    exact beginStop hrun
  · cases h
    exact .refl

/-- The application calls a method that sends a request. The call is refused before it has a
frame, refused because there is no open connection, or its frame goes out. -/
theorem applicationCallStep {op : Operation} (h : step cfg w (.call op) = some w') :
    Moves cfg w (.call op) w w' := by
  simp only [step] at h
  cases h
  rcases perform_cases cfg w .application op with
    ⟨err, herr, hperform⟩ | ⟨call, hop, howner, hframed, hconn, hperform⟩ |
    ⟨call, c, hop, howner, hframed, hconn, hperform⟩
  · rw [hperform]
    exact .single (.draw op)
  · rw [hperform]
    have hfitting : Fitting call := by constructor <;> simp [howner]
    exact .single (.refuse rfl hframed (hop ▸ .call) hfitting hconn)
  · rw [hperform]
    exact .single (.launch rfl hframed (hop ▸ .call) hconn howner (hop ▸ rfl))

/-- The application sends a frame of its own. -/
theorem sendStep {message : Fields} (h : step cfg w (.send message) = some w') :
    Moves cfg w (.send message) w w' := by
  simp only [step] at h
  split at h
  · rename_i c hsend
    cases h
    exact alter (.message rfl rfl hsend)
  · cases h
    exact .refl

/-- The application removes a handler, which changes nothing on a channel without handlers. -/
theorem removeHandlerStep {channel : String} {handler : ℕ}
    (h : step cfg w (.removeHandler channel handler) = some w') :
    Moves cfg w (.removeHandler channel handler) w w' := by
  simp only [step] at h
  split at h
  · cases h
    exact .single (.handlers _)
  · cases h
    exact .refl

/-- The application clears the handlers of a channel, or all of them. -/
theorem clearHandlersStep {channel : Option String}
    (h : step cfg w (.clearHandlers channel) = some w') :
    Moves cfg w (.clearHandlers channel) w w' := by
  cases channel with
  | none =>
    simp only [step] at h
    cases h
    exact .single (.handlers _)
  | some channel =>
    simp only [step] at h
    cases h
    exact .single (.handlers _)

end Moves

/-- A task to which a `CancelledError` is on its way takes no other step. -/
theorem step_guarded {o : Option World} {cancelled : Bool}
    (h : (if cancelled = true then none else o) = some w') : o = some w' := by
  cases cancelled with
  | true => cases h
  | false => exact h

/-- Every step of the client is a chain of moves. -/
theorem step_moves (hlinked : Linked w) (h : step cfg w e = some w') : Moves cfg w e w w' := by
  cases e with
  | tick d => exact Moves.tickStep h
  | frame c f => exact Moves.frameStep h
  | sockClosing c => exact Moves.sockClosingStep h
  | sockClosed c clean => exact Moves.sockClosedStep h
  | connected τ => exact Moves.openStep (.task rfl) rfl (step_guarded h)
  | connectFailed τ => exact Moves.openStep (.task rfl) rfl (step_guarded h)
  | authSent τ => exact Moves.openStep (.task rfl) rfl (step_guarded h)
  | authSendFailed τ => exact Moves.openStep (.task rfl) rfl (step_guarded h)
  | authReply τ => exact Moves.openStep (.task rfl) rfl (step_guarded h)
  | authTimeout τ => exact Moves.openStep (.task rfl) rfl (step_guarded h)
  | authClosed τ => exact Moves.openStep (.task rfl) rfl (step_guarded h)
  | start => exact Moves.startStep h
  | cancelStart τ => exact Moves.cancelStartStep h
  | stop => exact Moves.stopCallStep h
  | call op => exact Moves.applicationCallStep h
  | send message => exact Moves.sendStep h
  | addHandler channel handler =>
    simp only [step] at h
    cases h
    exact .single (.handlers _)
  | removeHandler channel handler => exact Moves.removeHandlerStep h
  | clearHandlers channel => exact Moves.clearHandlersStep h
  | sent k => exact Moves.callStep hlinked rfl h
  | sendFailed k => exact Moves.callStep hlinked rfl h
  | resume k => exact Moves.callStep hlinked rfl h
  | timeout k => exact Moves.callStep hlinked rfl h
  | cancel k => exact Moves.callStep hlinked rfl h
  | run τ => exact Moves.runStep (step_guarded h)
  | recv τ => exact Moves.recvStep (step_guarded h)
  | socketEnd τ => exact Moves.socketEndStep (step_guarded h)
  | callbackCall τ op => exact Moves.callbackCallStep (step_guarded h)
  | callbackEnd τ result => exact Moves.callbackEndStep (step_guarded h)
  | wake τ => exact Moves.wakeStep (step_guarded h)
  | closeDone τ => exact Moves.closeDoneStep (step_guarded h)
  | stopStep τ => exact Moves.stopStep h
  | deliverCancel τ =>
    simp only [step] at h
    split at h
    · exact Moves.cancelStep hlinked h
    · cases h

end ProxyClient.Websocket
