import ProxyClient.Websocket.Correlation

/-!
# Calls awaited by the task that reads the socket

The replay of the subscriptions and the callbacks of a dispatch run inside the supervise
task, the one task that reads the connection. While such a task awaits a call of its own
nothing reads the reply to it: the call is settled only if another supervise task, left by
an overlap of `stop()` and `start()`, dispatches the reply.
-/

namespace ProxyClient.Websocket

variable {cfg : Config} {w₀ w w' : World} {e : Event} {d : Dialect} {k : ℕ} {f : Inbound}

/-! ## The dispatch of a reply -/

/-- A frame whose slot is taken is consumed. -/
theorem PendingRequests.resolve_of_slot {p : PendingRequests} {key : Key} {i : ℕ}
    (hslot : d.slotOf f = some key) (hlookup : p.futures.lookup key = some i) :
    p.resolve f (d.responseKey f.fields) =
      .ok (true, { p with heap := Future.complete p.heap i (.result f) }) := by
  have hmem : key ∈ p.futures := AList.lookup_isSome.mp (by rw [hlookup]; rfl)
  unfold Dialect.slotOf at hslot
  unfold PendingRequests.resolve
  split at hslot
  · rename_i hpong
    cases hslot
    simp [hpong, PendingRequests.settle, hlookup]
  · rename_i hpong
    split at hslot
    · cases hslot
    · rename_i hnull
      simp [hpong, hnull, hslot, hmem, PendingRequests.settle, hlookup]

/-- Only an object has a slot: other frames are answered by nobody. -/
theorem Dialect.raw_of_slotOf {key : Key} (h : d.slotOf f = some key) :
    ∃ fields, f.raw = .json (.obj fields) := by
  by_contra hraw
  have hfields : f.fields = [] := by
    unfold Inbound.fields
    split
    · rename_i fields hobj
      exact absurd ⟨fields, hobj⟩ hraw
    · rfl
  simp only [Dialect.slotOf, hfields] at h
  cases d <;> simp [Dialect.responseKey, Fields.get] at h

/-- The client after `resolve` consumed a frame for a waiter. -/
def World.settled (w : World) (c i : ℕ) (f : Inbound) : World :=
  { w.modifyConn c (fun conn => { conn with resolved := conn.resolved ++ [f] }) with
    rpc := { w.rpc with
      pending := { w.rpc.pending with
        heap := Future.complete w.rpc.pending.heap i (.result f) } } }

/-- A frame whose slot is taken is consumed, and the pump reads on. -/
theorem dispatch_of_slot {key : Key} {i σ a c : ℕ} (hslot : cfg.dialect.slotOf f = some key)
    (hlookup : w.rpc.pending.futures.lookup key = some i) :
    w.dispatch cfg σ a c f = (w.settled c i f).read cfg σ a c := by
  obtain ⟨fields, hraw⟩ := Dialect.raw_of_slotOf hslot
  have hresolve := PendingRequests.resolve_of_slot hslot hlookup
  unfold World.dispatch
  simp only [hraw, World.modifyConn_rpc, hresolve, if_true]
  rfl

/-- The step that ends `on_message` dispatches the frame. -/
theorem Resolves.dispatch {σ c : ℕ} (h : Resolves w e σ c f) (hstep : step cfg w e = some w') :
    ∃ a, w.body σ = .supervise a (.inCallback c f .onMessage) ∧
      w.dispatch cfg σ a c f = w' := by
  obtain ⟨hev, a, hb⟩ := h
  have hboth : w.isCancelled σ = false ∧ w.dispatch cfg σ a c f = w' := by
    rcases hev with rfl | rfl <;>
      simpa [step, World.callbackEndStep, hb] using hstep
  exact ⟨a, hb, hboth.2⟩

/-- The dispatch of a frame settles the waiter in its slot. -/
theorem Settles.result (h : Settles cfg w e k f) (hstep : step cfg w e = some w') :
    w'.rpc.future k = some (.result f) := by
  obtain ⟨⟨σ, c, hres⟩, ⟨key, hslot, hlookup⟩, hpending⟩ := h
  obtain ⟨a, hb, hw'⟩ := hres.dispatch hstep
  have hev := hres.event
  have hact : Acts w e σ := by
    rcases hev with rfl | rfl <;> exact .task rfl
  have hb' : (w.settled c k f).body σ = .supervise a (.inCallback c f .onMessage) := hb
  have hread : Moves cfg w e (w.settled c k f) ((w.settled c k f).read cfg σ a c) :=
    Moves.read hact hb' rfl rfl (hb' ▸ .read)
  have hsettled : (w.settled c k f).rpc.future k = some (.result f) :=
    Future.getElem?_complete_of_pending (.result f) hpending
  rw [← hw', dispatch_of_slot hslot hlookup]
  exact hread.future_done hsettled rfl

/-! ## Calls of the supervise task -/

/-- A supervise task that is not `σ` dispatches the frame into the slot of a call. -/
def SettledByOther (cfg : Config) (w : World) (e : Event) (σ k : ℕ) (f : Inbound) : Prop :=
  Settles cfg w e k f ∧ ∃ σ' c, σ' ≠ σ ∧ Resolves w e σ' c f

/-- A call that a task awaits cannot be settled by that task. -/
theorem Settles.other {call : Call} {σ : ℕ} (hsound : Sound cfg w) (h : Settles cfg w e k f)
    (hcall : w.rpc.calls[k]? = some call) (htask : call.owner.task = some σ) :
    SettledByOther cfg w e σ k f := by
  refine ⟨h, ?_⟩
  obtain ⟨⟨σ', c, hres⟩, ⟨key, -, hlookup⟩, -⟩ := h
  refine ⟨σ', c, ?_, hres⟩
  rintro rfl
  obtain ⟨call', hcall', -, hended⟩ := hsound.rpc.slot hlookup
  obtain rfl := Option.some.inj (hcall'.symm.trans hcall)
  have hawaits := hsound.linked.awaited hcall hended htask
  obtain ⟨a, hb⟩ := hres.body
  rw [hb] at hawaits
  cases hawaits

/-- A future that exists has a call, the one that created it. -/
theorem Sound.call_of_future (hsound : Sound cfg w) {fut : Future Inbound Exc}
    (h : w.rpc.future k = some fut) : ∃ call, w.rpc.calls[k]? = some call := by
  have hlt : k < w.rpc.calls.length := by
    rw [hsound.rpc.lockstep]
    exact (List.getElem?_eq_some_iff.mp h).1
  exact ⟨_, List.getElem?_eq_getElem hlt⟩

/-- A call that a task awaits is settled by a frame exactly when some earlier step of the run
was the dispatch of that frame by another task. -/
theorem settled_iff_of_task {ok : World → Event → Prop} {es : List Event}
    (hrun : Transition.Run (step cfg) ok World.init es w) {call : Call} {σ : ℕ}
    (hcall : w.rpc.calls[k]? = some call) (htask : call.owner.task = some σ) :
    w.rpc.future k = some (.result f) ↔
      ∃ v e u, Transition.Along (step cfg) ok World.init es w v e u ∧
        SettledByOther cfg v e σ k f := by
  constructor
  · intro hf
    induction hrun generalizing call with
    | nil => simp [World.init, Rpc.future] at hf
    | @snoc es t w e hprefix hok hstep ih =>
      have hsound := sound_of_run hprefix
      have hmoves := step_moves hsound.linked hstep
      rcases hmoves.future_result hf with hold | hsettles
      · obtain ⟨call₀, hcall₀⟩ := hsound.call_of_future hold
        obtain ⟨call', hcall', hsame⟩ := hmoves.extends k call₀ hcall₀
        obtain rfl := Option.some.inj (hcall'.symm.trans hcall)
        obtain ⟨v, e₁, u, halong, hother⟩ := ih hcall₀ (hsame.owner ▸ htask) hold
        exact ⟨v, e₁, u, halong.snoc hok hstep, hother⟩
      · obtain ⟨call₀, hcall₀⟩ := hsound.call_of_future hsettles.pending
        obtain ⟨call', hcall', hsame⟩ := hmoves.extends k call₀ hcall₀
        obtain rfl := Option.some.inj (hcall'.symm.trans hcall)
        exact ⟨t, e, w, .last hprefix hok hstep,
          hsettles.other hsound hcall₀ (hsame.owner ▸ htask)⟩
  · rintro ⟨v, e, u, halong, hsettles, -⟩
    have hu : u.rpc.future k = some (.result f) := hsettles.result halong.enabled
    obtain ⟨es₁, hv⟩ := halong.before
    have hsound : Sound cfg v := sound_of_run hv
    have hsound' : Sound cfg u := hsound.moves (step_moves hsound.linked halong.enabled)
    have hboth : Sound cfg w ∧ w.rpc.future k = some (.result f) := by
      refine halong.invariant (I := fun w => Sound cfg w ∧ w.rpc.future k = some (.result f))
        ⟨hsound', hu⟩ ?_
      intro t e' v' ht _ hstep
      have hmoves := step_moves ht.1.linked hstep
      exact ⟨ht.1.moves hmoves, hmoves.future_done ht.2 rfl⟩
    exact hboth.2

/-! ## Replays and callbacks -/

/-- The call whose timer fires in a step. -/
def Event.timesOut : Event → Option ℕ
  | .timeout k => some k
  | _ => none

/-- A server that echoes correlation fields and whose answer to a call has arrived on the
connection of the call before the call's timer fires. -/
def AnswersInTime (cfg : Config) (w : World) (e : Event) : Prop :=
  EchoServer cfg w e ∧ ∀ k ∈ e.timesOut, ∃ call ∈ w.rpc.calls[k]?, ∃ c ∈ call.conn,
    ∃ conn ∈ w.conns[c]?, ∃ f ∈ conn.inbox ++ conn.resolved, f.answers = some k

instance (cfg : Config) (w : World) (e : Event) : Decidable (AnswersInTime cfg w e) :=
  inferInstanceAs (Decidable (_ ∧ ∀ k ∈ e.timesOut, _))

/-- A `subscribe()` of the replay is settled by its own reply if and only if a supervise task
other than the one that replays dispatches that reply while the call waits. A replay that
ended with `TimeoutError` was never settled. -/
theorem replay_settled_iff {es : List Event}
    (hrun : Transition.Run (step cfg) (EchoServer cfg) World.init es w) {call : Call} {σ : ℕ}
    (hcall : w.rpc.calls[k]? = some call) (howner : call.owner = .replay σ) :
    ((∃ f, f.answers = some k ∧ w.rpc.future k = some (.result f)) ↔
      ∃ v e u f, Transition.Along (step cfg) (EchoServer cfg) World.init es w v e u ∧
        SettledByOther cfg v e σ k f) ∧
    (call.phase = .ended (.raised .timeoutError) → ∀ f, w.rpc.future k ≠ some (.result f)) := by
  have htask : call.owner.task = some σ := by rw [howner]; rfl
  have hreq : call.op.isRequest = true := by
    obtain ⟨channel, params, hop⟩ := (fitting_of_run hrun hcall).replay σ howner
    rw [hop]
    rfl
  refine ⟨⟨?_, ?_⟩, ?_⟩
  · rintro ⟨f, -, hf⟩
    obtain ⟨v, e, u, h⟩ := (settled_iff_of_task hrun hcall htask).mp hf
    exact ⟨v, e, u, f, h⟩
  · rintro ⟨v, e, u, f, h⟩
    have hf := (settled_iff_of_task hrun hcall htask).mpr ⟨v, e, u, h⟩
    exact ⟨f, answers_of_result hrun (fun _ _ h => h) hcall hreq hf, hf⟩
  · intro hended f hf
    rw [cancelled_of_timeoutError hrun hcall hended] at hf
    cases hf

/-- The connection of a subscribed client drops, the reconnect is accepted, and the ack of the
replayed `subscribe()` arrives ten seconds before its timeout. -/
def replayEvents : List Event :=
  subscribeEvents ++ [.sockClosed 0 true, .socketEnd 1, .tick 1, .wake 1] ++ openEvents 1 1 ++
    [.sent 1, .frame 1 (subscribeAck 2 1), .tick 10, .timeout 1]

/-- The replay ends with `TimeoutError` although its ack lies in the open connection's inbox. -/
theorem replay_times_out :
    ∃ w, Transition.Run (step (.sample .kraken none)) (AnswersInTime (.sample .kraken none))
        World.init replayEvents w ∧
      (∃ call ∈ w.rpc.calls[1]?, call.owner = .replay 1 ∧
        call.phase = .ended (.raised .timeoutError)) ∧
      ∃ conn ∈ w.conns[1]?, conn.sock = .live ∧ conn.inbox = [subscribeAck 2 1] :=
  Transition.Run.exists_of_exec (by decide +kernel)

/-- A second supervise task, begun by a `start()` during a `stop()`, reads the connection of
the replay. -/
def twoSupervisorEvents : List Event :=
  subscribeEvents ++ [.stop, .start, .deliverCancel 1] ++ openEvents 3 1 ++ [.tick 1, .wake 1] ++
    openEvents 1 2 ++ [.run 4, .sent 1, .frame 2 (subscribeAck 2 1), .recv 4,
      .callbackEnd 4 .returned]

/-- The condition is met: a second supervise task, which reads the same connection, resolves the ack
of the replay. -/
theorem replay_settled_iff_twoSupervisors :
    ∃ w, Transition.Run (step (.sample .kraken none)) (EchoServer (.sample .kraken none))
        World.init twoSupervisorEvents w ∧
      ∃ v e u f, Transition.Along (step (.sample .kraken none))
          (EchoServer (.sample .kraken none)) World.init twoSupervisorEvents w v e u ∧
        SettledByOther (.sample .kraken none) v e 1 1 f := by
  obtain ⟨w, hrun, call, hcall, howner, hsettled⟩ :
      ∃ w, Transition.Run (step (.sample .kraken none)) (EchoServer (.sample .kraken none))
        World.init twoSupervisorEvents w ∧ ∃ call ∈ w.rpc.calls[1]?, call.owner = .replay 1 ∧
          w.rpc.future 1 = some (.result (subscribeAck 2 1)) :=
    Transition.Run.exists_of_exec (by decide +kernel)
  exact ⟨w, hrun, (replay_settled_iff hrun hcall howner).1.mp ⟨_, rfl, hsettled⟩⟩

/-- A call of a callback is settled by a frame if and only if a supervise task other than the
one that runs the callback dispatches that frame while the call waits, and then a request is
settled by its own reply. A call that ended with `TimeoutError` was never settled. -/
theorem callback_settled_iff {es : List Event}
    (hrun : Transition.Run (step cfg) (EchoServer cfg) World.init es w) {call : Call} {σ : ℕ}
    (hcall : w.rpc.calls[k]? = some call) (howner : call.owner = .callback σ) :
    (∀ f, w.rpc.future k = some (.result f) ↔
      ∃ v e u, Transition.Along (step cfg) (EchoServer cfg) World.init es w v e u ∧
        SettledByOther cfg v e σ k f) ∧
    (call.op.isRequest = true → ∀ f, w.rpc.future k = some (.result f) → f.answers = some k) ∧
    (call.phase = .ended (.raised .timeoutError) → ∀ f, w.rpc.future k ≠ some (.result f)) := by
  have htask : call.owner.task = some σ := by rw [howner]; rfl
  refine ⟨?_, ?_, ?_⟩
  · intro f
    exact settled_iff_of_task hrun hcall htask
  · intro hreq f hf
    exact answers_of_result hrun (fun _ _ h => h) hcall hreq hf
  · intro hended f hf
    rw [cancelled_of_timeoutError hrun hcall hended] at hf
    cases hf

/-- A handler of the channel `ticker` places an order, whose reply arrives ten seconds before
the timeout of the request. -/
def handlerEvents : List Event :=
  startEvents ++
    [.addHandler "ticker" 0,
      .frame 0 ⟨.json (.obj [("channel", .str "ticker")]), none⟩, .recv 1,
      .callbackEnd 1 .returned, .callbackCall 1 (.request "add_order" none 10 none "key"),
      .sent 0,
      .frame 0 ⟨.json (.obj [("method", .str "add_order"), ("success", .bool true),
        ("id", .int 1), ("req_id", .int 1)]), some 0⟩,
      .tick 10, .timeout 0]

/-- The handler's order is reported as timed out although its reply lies in the inbox. -/
theorem callback_times_out :
    ∃ w, Transition.Run (step (.sample .kraken none)) (AnswersInTime (.sample .kraken none))
        World.init handlerEvents w ∧
      (∃ call ∈ w.rpc.calls[0]?, call.owner = .callback 1 ∧
        call.phase = .ended (.raised .timeoutError)) ∧
      ∃ conn ∈ w.conns[0]?, conn.sock = .live ∧ conn.inbox.map Inbound.answers = [some 0] :=
  Transition.Run.exists_of_exec (by decide +kernel)

/-- The handler's order is never settled by a reply, although the reply is there ten seconds before
the deadline. -/
theorem callback_settled_iff_handler :
    ∃ w, Transition.Run (step (.sample .kraken none)) (EchoServer (.sample .kraken none))
        World.init handlerEvents w ∧ ∀ f, w.rpc.future 0 ≠ some (.result f) := by
  obtain ⟨w, hrun, call, hcall, howner, hended⟩ :
      ∃ w, Transition.Run (step (.sample .kraken none)) (EchoServer (.sample .kraken none))
        World.init handlerEvents w ∧ ∃ call ∈ w.rpc.calls[0]?, call.owner = .callback 1 ∧
          call.phase = .ended (.raised .timeoutError) :=
    Transition.Run.exists_of_exec (by decide +kernel)
  exact ⟨w, hrun, (callback_settled_iff hrun hcall howner).2.2 hended⟩

end ProxyClient.Websocket
