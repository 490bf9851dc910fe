import ProxyClient.Websocket.Unread

/-!
# Pings and the one slot they share

All pings wait in one reserved slot of the map of pending requests. A ping that begins while
another one waits takes the slot over: no pong and no `fail_all` reaches the first one any
more, and its timeout makes the heartbeat close a healthy connection. As long as pings do
not overlap, the outstanding one holds the slot, and its pong settles it once the supervise
task gets to it. A callback that keeps that task from reading has the same effect as a pong
that never came.
-/

namespace ProxyClient.Websocket

variable {cfg : Config} {w₀ w w' : World} {e : Event} {d : Dialect} {r r' : Rpc} {k : ℕ}
  {f : Inbound}

/-! ## The slot -/

/-- A ping that has not ended waits for its future. -/
structure Rpc.Outstanding (r : Rpc) (k : ℕ) : Prop where
  ping : ∃ call ∈ r.calls[k]?, call.op = .ping ∧ call.phase.isEnded = false
  pending : r.future k = some .pending

instance (r : Rpc) (k : ℕ) : Decidable (r.Outstanding k) :=
  decidable_of_iff
    ((∃ call ∈ r.calls[k]?, call.op = .ping ∧ call.phase.isEnded = false) ∧
      r.future k = some .pending)
    ⟨fun ⟨hping, hpending⟩ => ⟨hping, hpending⟩, fun h => ⟨h.ping, h.pending⟩⟩

/-- The outstanding ping holds the slot, so there is at most one of them. -/
def Rpc.PingHeld (r : Rpc) : Prop :=
  ∀ k, r.Outstanding k → r.pending.futures.lookup pongKey = some k

/-- An outstanding ping is a call that has not ended, and its future is pending. -/
theorem Rpc.Outstanding.waits (h : r.Outstanding k) : r.Waits k where
  call := by
    obtain ⟨call, hcall, -, hended⟩ := h.ping
    exact ⟨call, hcall, hended⟩
  pending := h.pending

/-- A ping that is outstanding after a move was so before it, or has just begun. -/
theorem Rpc.Move.outstanding (h : Rpc.Move d r r') (hinv : r.Inv d) (hk : r'.Outstanding k) :
    r.Outstanding k ∨ k = r.calls.length := by
  rcases h.waits hinv hk.waits with hold | hnew
  · obtain ⟨call, hcall, hended⟩ := hold.call
    obtain ⟨call', hcall', hsame⟩ := h.extends k call hcall
    obtain ⟨new, hnew, hping, -⟩ := hk.ping
    obtain rfl := Option.some.inj (hcall'.symm.trans hnew)
    exact .inl ⟨⟨call, hcall, hsame.op.symm.trans hping, hended⟩, hold.pending⟩
  · exact .inr hnew

/-- The outstanding ping keeps the slot, unless another ping begins. -/
theorem Rpc.PingHeld.move (hheld : r.PingHeld) (hinv : r.Inv d) (h : Rpc.Move d r r')
    (hfree : ∀ call, r'.calls = r.calls ++ [call] → call.op = .ping → ∀ k, ¬r.Outstanding k) :
    r'.PingHeld := by
  intro k hk
  rcases h.outstanding hinv hk with hold | hnew
  · have hslot := hheld k hold
    cases h with
    | draw op => rwa [Rpc.futures_draw]
    | @register new hframed _ =>
      have hop : new.op ≠ .ping := fun hping => hfree new (by simp [Rpc.register]) hping k hold
      have hkey : pongKey ≠ new.key := by
        rcases Rpc.key_of_framed hframed with ⟨-, hkey⟩ | ⟨hping, -⟩
        · rw [hkey]
          exact (Rpc.keyOf_ne_pongKey d _).symm
        · exact absurd hping hop
      simp only [Rpc.register, PendingRequests.create, Rpc.futures_draw]
      rw [AList.lookup_insert_ne hkey, hslot]
    | await => exact hslot
    | @finish j old outcome hj _ =>
      apply hinv.lookup_finish_of_ne hj hslot
      rintro rfl
      obtain ⟨call, hcall, -, hended⟩ := hk.ping
      rw [Rpc.calls_finish hj] at hcall
      obtain ⟨-, -, -, -, heq⟩ := Rpc.phase_cases hcall
      rw [heq rfl] at hended
      cases hended
    | settle =>
      simp only [PendingRequests.settle]
      split
      · exact hslot
      · exact hslot
    | failAll => exact absurd hslot (Rpc.Inv.not_registered_of_completeAll rfl hk.pending pongKey)
    | cancelAll => exact absurd hslot (Rpc.Inv.not_registered_of_completeAll rfl hk.pending pongKey)
  · obtain ⟨call, hcall, hping, -⟩ := hk.ping
    have hlt : k < r'.calls.length := (List.getElem?_eq_some_iff.mp hcall).1
    cases h with
    | @register new hframed _ =>
      simp only [Rpc.register, Rpc.calls_draw, hnew, List.getElem?_concat_length] at hcall
      obtain rfl := Option.some.inj hcall
      rcases Rpc.key_of_framed hframed with ⟨hreq, -⟩ | ⟨-, hkey⟩
      · rw [hping] at hreq
        cases hreq
      · simp only [Rpc.register, PendingRequests.create, hkey, Rpc.heap_draw]
        rw [AList.lookup_insert, hnew, hinv.lockstep]
    | draw op =>
      rw [Rpc.calls_draw] at hlt
      omega
    | finish hj _ =>
      simp only [Rpc.finish, hj, List.length_modify] at hlt
      omega
    | await =>
      simp only [Rpc.await, List.length_modify] at hlt
      omega
    | settle => exact absurd hlt (by simp only; omega)
    | failAll => exact absurd hlt (by simp only [Rpc.failAll]; omega)
    | cancelAll => exact absurd hlt (by simp only [Rpc.cancelAll]; omega)

/-! ## Pings that do not overlap -/

/-- A frame is the pong that answers a call. -/
def Inbound.Pongs (f : Inbound) (k : ℕ) : Prop :=
  f.answers = some k ∧ Fields.get f.fields "event" = .str "pong"

instance (f : Inbound) (k : ℕ) : Decidable (f.Pongs k) :=
  inferInstanceAs (Decidable (_ ∧ _))

/-- A server that answers every ping before it times out, as long as the socket is open. -/
structure AnswersPings (w : World) (e : Event) : Prop where
  /-- A frame answers only calls that were made. -/
  labelled : ∀ f ∈ e.arrival, ∀ k ∈ f.answers, k < w.rpc.calls.length
  /-- When the timer of a ping fires, its pong has arrived or the socket has closed. -/
  in_time : ∀ k ∈ e.timesOut, ∀ call ∈ w.rpc.calls[k]?, call.op = .ping →
    ∃ c ∈ call.conn, ∃ conn ∈ w.conns[c]?,
      conn.sock.isOpen = false ∨ ∃ f ∈ conn.received, f.Pongs k

/-- A step in which pings concern the connection that the client runs on. -/
structure PingsCurrent (w : World) (e : Event) : Prop where
  begins : Begins w e .ping → ∀ c ∈ w.sendConn, w.RunsOn c
  fires : ∀ k ∈ e.timesOut, ∀ call ∈ w.rpc.calls[k]?, call.op = .ping →
    ∀ c ∈ call.conn, w.RunsOn c

/-- A step that does not take the slot from an outstanding ping, and does not let one time out
behind the back of the supervise task. -/
structure PingsAttended (cfg : Config) (w : World) (e : Event) : Prop where
  /-- A ping begins when no other is outstanding. -/
  apart : Begins w e .ping → ∀ k < w.rpc.calls.length, ¬w.rpc.Outstanding k
  /-- Only pongs arrive under the reserved key. -/
  reserved : ∀ f ∈ e.arrival, Fields.get f.fields "event" ≠ .str "pong" →
    (cfg.dialect.responseKey f.fields).key? ≠ some pongKey
  /-- When the timer of a ping fires, the supervise task has got to its pong, if it arrived, and
  to the end of the socket, if it closed. -/
  attended : ∀ k ∈ e.timesOut, ∀ call ∈ w.rpc.calls[k]?, call.op = .ping →
    ∀ c ∈ call.conn, ∀ conn ∈ w.conns[c]?, conn.sock.isOpen = true ∧
      ∀ f ∈ conn.received, f.Pongs k → ¬w.Unread c f

/-- The heartbeat task sleeps before its next ping. -/
def Body.sleeps : Body → Bool
  | .heartbeat (.sleeping _) => true
  | _ => false

/-- The heartbeat sleeps at one of its suspension points. -/
theorem Body.sleeps_iff {b : Body} : b.sleeps = true ↔ ∃ wake, b = .heartbeat (.sleeping wake) := by
  constructor
  · intro h
    unfold Body.sleeps at h
    split at h
    · exact ⟨_, rfl⟩
    · cases h
  · rintro ⟨wake, rfl⟩
    rfl

instance (w : World) (e : Event) : Decidable (Begins w e .ping) :=
  match e with
  | .call op => decidable_of_iff (op = .ping) ⟨fun h => h ▸ .call, fun h => by cases h; rfl⟩
  | .callbackCall σ op =>
    decidable_of_iff (op = .ping) ⟨fun h => h ▸ .callback, fun h => by cases h; rfl⟩
  | .wake η =>
    decidable_of_iff ((w.body η).sleeps = true)
      ⟨fun h => (Body.sleeps_iff.mp h).elim fun _ hb => .heartbeat hb,
        fun h => by cases h with | heartbeat hb => exact Body.sleeps_iff.mpr ⟨_, hb⟩⟩
  | .tick _ | .frame _ _ | .sockClosing _ | .sockClosed _ _ | .connected _ | .connectFailed _
  | .authSent _ | .authSendFailed _ | .authReply _ | .authTimeout _ | .authClosed _ | .start
  | .cancelStart _ | .stop | .send _ | .addHandler _ _ | .removeHandler _ _ | .clearHandlers _
  | .sent _ | .sendFailed _ | .resume _ | .timeout _ | .cancel _ | .run _ | .recv _
  | .socketEnd _ | .callbackEnd _ _ | .closeDone _ | .stopStep _ | .deliverCancel _ =>
    isFalse nofun

instance (w : World) (e : Event) : Decidable (AnswersPings w e) :=
  decidable_of_iff
    ((∀ f ∈ e.arrival, ∀ k ∈ f.answers, k < w.rpc.calls.length) ∧
      ∀ k ∈ e.timesOut, ∀ call ∈ w.rpc.calls[k]?, call.op = .ping →
        ∃ c ∈ call.conn, ∃ conn ∈ w.conns[c]?,
          conn.sock.isOpen = false ∨ ∃ f ∈ conn.received, f.Pongs k)
    ⟨fun ⟨hlabelled, hin_time⟩ => ⟨hlabelled, hin_time⟩, fun h => ⟨h.labelled, h.in_time⟩⟩

instance (w : World) (e : Event) : Decidable (PingsCurrent w e) :=
  decidable_of_iff
    ((Begins w e .ping → ∀ c ∈ w.sendConn, w.RunsOn c) ∧
      ∀ k ∈ e.timesOut, ∀ call ∈ w.rpc.calls[k]?, call.op = .ping →
        ∀ c ∈ call.conn, w.RunsOn c)
    ⟨fun ⟨hbegins, hfires⟩ => ⟨hbegins, hfires⟩, fun h => ⟨h.begins, h.fires⟩⟩

instance (cfg : Config) (w : World) (e : Event) : Decidable (PingsAttended cfg w e) :=
  decidable_of_iff
    ((Begins w e .ping → ∀ k < w.rpc.calls.length, ¬w.rpc.Outstanding k) ∧
      (∀ f ∈ e.arrival, Fields.get f.fields "event" ≠ .str "pong" →
        (cfg.dialect.responseKey f.fields).key? ≠ some pongKey) ∧
      ∀ k ∈ e.timesOut, ∀ call ∈ w.rpc.calls[k]?, call.op = .ping →
        ∀ c ∈ call.conn, ∀ conn ∈ w.conns[c]?, conn.sock.isOpen = true ∧
          ∀ f ∈ conn.received, f.Pongs k → ¬w.Unread c f)
    ⟨fun ⟨hapart, hreserved, hattended⟩ => ⟨hapart, hreserved, hattended⟩,
      fun h => ⟨h.apart, h.reserved, h.attended⟩⟩

/-- The outstanding ping holds the slot in every step that keeps pings apart. -/
theorem Move.pingHeld (h : Move cfg w₀ e w w')
    (hapart : Begins w₀ e .ping → ∀ k < w₀.rpc.calls.length, ¬w₀.rpc.Outstanding k)
    (hinv : w.rpc.Inv cfg.dialect) (hheld : w.rpc.PingHeld) : w'.rpc.PingHeld := by
  have hfree (hbegins : Begins w₀ e .ping) (k : ℕ) : ¬w₀.rpc.Outstanding k := by
    intro hk
    obtain ⟨call, hcall, -⟩ := hk.ping
    exact hapart hbegins k (List.getElem?_eq_some_iff.mp hcall).1 hk
  have register {call : Call} (hframed : Framed cfg w call) (hbegins : Begins w₀ e call.op)
      (hrpc : call.op = .ping → w.rpc = w₀.rpc) :
      ((w.rpc.draw call.op).register call).PingHeld := by
    apply hheld.move hinv (.register hframed.frame hframed.phase)
    intro new hnew hping
    have hsame : call = new := by
      have happend := hnew
      simp only [Rpc.register, Rpc.calls_draw] at happend
      simpa using happend
    subst hsame
    rw [hrpc hping]
    exact hfree (hping ▸ hbegins)
  have step {r' : Rpc} (h : Rpc.Move cfg.dialect w.rpc r')
      (hlength : r'.calls.length = w.rpc.calls.length) : r'.PingHeld := by
    apply hheld.move hinv h
    intro new hnew
    rw [hnew] at hlength
    simp at hlength
  cases h with
  | draw op => exact step (.draw op) (by simp)
  | launch hw hframed hbegins => exact register hframed hbegins (fun _ => by rw [hw])
  | @call τ c call b _ hframed hbegins _ hcalls =>
    apply register hframed hbegins
    intro hping
    generalize w.body τ = b₀ at hcalls
    cases hcalls with
    | callback _ hw => rw [hw]
    | replay _ hop =>
      rw [hping] at hop
      cases hop
    | heartbeat _ _ hw => rw [hw]
  | @refuse call hrpc hframed hbegins =>
    have hregistered := register hframed hbegins (fun _ => hrpc)
    have hinv' := hinv.register hframed.frame hframed.phase
    have hlast : ((w.rpc.draw call.op).register call).calls[w.rpc.calls.length]? = some call := by
      simp [Rpc.register]
    apply hregistered.move hinv' (.finish hlast (by simp))
    intro new hnew
    have hlength := congrArg List.length hnew
    simp only [Rpc.finish, hlast, List.length_modify, List.length_append,
      List.length_singleton] at hlength
    omega
  | await hcall hphase => exact step (.await hcall hphase) (by simp [Rpc.await])
  | @endCall k call outcome hrpc hcall _ hends =>
    rw [rpc_endCall]
    refine step (.finish hcall ?_) (by simp [Rpc.finish, hcall])
    intro f hf
    rw [hrpc]
    exact hends.future_of_reply hf
  | @resume τ k call outcome b _ hrpc hcall _ hends =>
    rw [World.setBody_rpc, rpc_endCall]
    refine step (.finish hcall ?_) (by simp [Rpc.finish, hcall])
    intro f hf
    rw [hrpc]
    exact hends.future_of_reply hf
  | settle _ _ _ hslot => exact step (.settle hslot) rfl
  | failAll exc => exact step (.failAll (asConnectionError_isConnectionError exc)) rfl
  | cancelAll => exact step .cancelAll rfl
  | _ => exact hheld

/-- What a frame must be for the slot of pings to work. -/
def Rpc.Slotted (d : Dialect) (r : Rpc) (f : Inbound) : Prop :=
  (∀ k ∈ f.answers, k < r.calls.length) ∧
    (Fields.get f.fields "event" ≠ .str "pong" → (d.responseKey f.fields).key? ≠ some pongKey)

/-- A reply keeps its slot in every later state, as no call is lost. -/
theorem Rpc.Slotted.mono (h : r.Slotted d f) (hextends : r.Extends r') : r'.Slotted d f := by
  refine ⟨?_, h.2⟩
  intro k hk
  have hlt := h.1 k hk
  obtain ⟨call, hcall, -⟩ := hextends k _ (List.getElem?_eq_getElem hlt)
  exact (List.getElem?_eq_some_iff.mp hcall).1

/-- The slot of a pong is the reserved one. -/
theorem Dialect.slotOf_pong (h : Fields.get f.fields "event" = .str "pong") :
    d.slotOf f = some pongKey := by
  simp [Dialect.slotOf, h]

/-- Only a pong has the reserved slot, and it answers a ping. -/
theorem Rpc.Slotted.pong (h : r.Slotted d f) (hslot : d.slotOf f = some pongKey) :
    Fields.get f.fields "event" = .str "pong" := by
  by_contra hpong
  unfold Dialect.slotOf at hslot
  rw [if_neg hpong] at hslot
  split at hslot
  · cases hslot
  · exact h.2 hpong hslot

/-- Pings in a state in which none has been stranded, and in every step from it. -/
structure PingsAnswered (cfg : Config) (w : World) : Prop where
  /-- No ping waits any longer once its pong was dispatched. -/
  answered : ∀ {k c : ℕ} {conn : Connection} {f : Inbound}, w.conns[c]? = some conn →
    f ∈ conn.resolved → f.Pongs k → ¬w.rpc.Outstanding k
  /-- The outstanding ping is settled by the next pong that is dispatched. -/
  settles : ∀ {e : Event} {w' : World} {k σ c : ℕ} {f : Inbound}, w.rpc.Outstanding k →
    Resolves w e σ c f → Fields.get f.fields "event" = .str "pong" → step cfg w e = some w' →
    w'.rpc.future k = some (.result f)
  /-- A ping is settled by pongs only. -/
  by_pong : ∀ {k : ℕ} {call : Call} {f : Inbound}, w.rpc.calls[k]? = some call →
    call.op = .ping → w.rpc.future k = some (.result f) →
    Fields.get f.fields "event" = .str "pong"
  /-- No ping ends with `TimeoutError`. -/
  in_time : ∀ {k : ℕ} {call : Call}, w.rpc.calls[k]? = some call → call.op = .ping →
    call.phase ≠ .ended (.raised .timeoutError)
  /-- The heartbeat closes no connection. -/
  kept : ∀ {η c : ℕ}, w.body η ≠ .heartbeat (.closing c)
  /-- When the socket ends, `fail_all` reaches the outstanding ping. -/
  failed : ∀ {σ k : ℕ} {w' : World}, w.rpc.Outstanding k → w.running = true →
    step cfg w (.socketEnd σ) = some w' →
    ∃ exc, w'.rpc.future k = some (.exception exc) ∧ exc.isConnectionError = true

/-! ## Steps -/

/-- A call that there was and that is an outstanding ping was one. -/
theorem Rpc.Moves.outstanding (h : Rpc.Moves d r r') (hinv : r.Inv d)
    (hlt : k < r.calls.length) (hk : r'.Outstanding k) : r.Outstanding k := by
  induction h with
  | refl => exact hk
  | @tail r₁ r₂ hprefix hlast ih =>
    rcases hlast.outstanding (hinv.moves hprefix) hk with hold | hnew
    · exact ih hold
    · obtain ⟨call, hcall, -⟩ := Rpc.Moves.extends hprefix k _ (List.getElem?_eq_getElem hlt)
      have hlt₁ := (List.getElem?_eq_some_iff.mp hcall).1
      omega

/-- The dispatch of a pong settles the ping that holds the slot. -/
theorem Resolves.settles {σ c : ℕ} (hres : Resolves w e σ c f) (hheld : w.rpc.PingHeld)
    (hpong : Fields.get f.fields "event" = .str "pong") (hk : w.rpc.Outstanding k)
    (hstep : step cfg w e = some w') : w'.rpc.future k = some (.result f) := by
  have hsettles : Settles cfg w e k f :=
    ⟨⟨σ, c, hres⟩, ⟨pongKey, Dialect.slotOf_pong hpong, hheld k hk⟩, hk.pending⟩
  exact hsettles.result hstep

/-- A step in which no ping times out. -/
def NoPingTimesOut (w : World) (e : Event) : Prop :=
  ∀ (k : ℕ) (call : Call), w.rpc.calls[k]? = some call → call.op = .ping →
    ¬Ends w e k call (.raised .timeoutError)

/-- Such a step ends no ping with `TimeoutError`. -/
theorem NoPingTimesOut.calls (h : NoPingTimesOut w₀ e) (hchain : Moves cfg w₀ e w₀ w)
    (hold : ∀ (k : ℕ) (call : Call), w₀.rpc.calls[k]? = some call → call.op = .ping →
      call.phase ≠ .ended (.raised .timeoutError)) (k : ℕ) (call : Call)
    (hcall : w.rpc.calls[k]? = some call) (hping : call.op = .ping) :
    call.phase ≠ .ended (.raised .timeoutError) := by
  induction hchain generalizing k call with
  | refl => exact hold k call hcall hping
  | tail _ hlast ih =>
    rcases hlast.call_cases hcall with ⟨call₀, hcall₀, hcont⟩ | ⟨-, call₀, hframed, -, hnew | hnew⟩
    · cases hcont with
      | same => exact ih k _ hcall₀ hping
      | await => exact nofun
      | ends hends hrpc _ =>
        rintro hended
        obtain rfl := Phase.ended.inj hended
        exact h k call₀ (hrpc ▸ hcall₀) hping hends
    · rw [hnew, hframed.phase]
      exact nofun
    · rw [hnew]
      exact nofun

/-- Such a step makes the heartbeat close no connection. -/
theorem NoPingTimesOut.bodies (h : NoPingTimesOut w₀ e) (hsound : Sound cfg w₀)
    (hfitting : ∀ (k : ℕ) (call : Call), w₀.rpc.calls[k]? = some call → Fitting call)
    (hchain : Moves cfg w₀ e w₀ w) (hold : ∀ η c, w₀.body η ≠ .heartbeat (.closing c))
    (η c : ℕ) : w.body η ≠ .heartbeat (.closing c) := by
  induction hchain with
  | refl => exact hold η c
  | @tail w₁ w₂ hprefix hlast ih =>
    have hmoved := hlast.moved η
    generalize w₂.body η = b at hmoved
    rintro rfl
    cases hmoved with
    | same hb => exact ih hb
    | goes _ _ hgo => cases hgo
    | calls _ _ hcalls => cases hcalls
    | @resumes k call outcome _ _ _ hrpc hcall htask hends hb hresumes =>
      cases hresumes with
      | close houtcome =>
        subst houtcome
        have hawaits : (w₁.body η).awaits η = some (.heartbeat η, k) := by
          rw [hb]
          rfl
        obtain ⟨call', hcall', howner, -⟩ := (hsound.moves hprefix).linked.calls hawaits
        obtain rfl := Option.some.inj (hcall'.symm.trans hcall)
        rw [hrpc] at hcall
        exact h k call' hcall ((hfitting k call' hcall).heartbeat η howner) hends
    | begins _ hfresh => cases hfresh

/-! ## The end of a connection -/

/-- `fail_all` reaches the ping that holds the slot. -/
theorem Rpc.PingHeld.failAll (hheld : r.PingHeld) (hk : r.Outstanding k) (exc : Exc) :
    (r.failAll exc).future k = some (.exception exc) := by
  have hwaiting : k ∈ r.pending.waiting := PendingRequests.mem_waiting.mpr ⟨pongKey, hheld k hk⟩
  exact Future.getElem?_completeAll_of_mem hwaiting hk.pending rfl

/-- The ping that holds the slot fails with the others when the socket ends. -/
theorem Rpc.PingHeld.failed {σ : ℕ} (hheld : w.rpc.PingHeld) (hk : w.rpc.Outstanding k)
    (hrun : w.running = true) (hstep : step cfg w (.socketEnd σ) = some w') :
    ∃ exc, w'.rpc.future k = some (.exception exc) ∧ exc.isConnectionError = true := by
  obtain ⟨a, c, exc, -, rfl⟩ := socketEnd_cases hstep
  refine ⟨World.asConnectionError exc, ?_, asConnectionError_isConnectionError exc⟩
  rw [rpc_pumpReturned cfg σ a exc hrun]
  exact hheld.failAll hk _

/-! ## Runs -/

/-- A run in which pings of the connection that the client runs on do not overlap and are attended
to, against a server that answers them in time. -/
abbrev PingRun (cfg : Config) : List Event → World → Prop :=
  Transition.Run (step cfg)
    (fun w e => AnswersPings w e ∧ PingsCurrent w e ∧ PingsAttended cfg w e) World.init

/-- The ping that is outstanding holds the slot of the pongs. -/
theorem PingRun.held {es : List Event} (hrun : PingRun cfg es w) : w.rpc.PingHeld := by
  refine invariant_of_moves (I := fun w => w.rpc.PingHeld) hrun ?_ ?_
  · intro k hk
    have hpending := hk.pending
    simp [World.init, Rpc.future] at hpending
  · intro w₀ e w w' hok _ _ hsound hheld _ hmove
    exact hmove.pingHeld hok.2.2.apart hsound.rpc hheld

/-- Every frame in the client belongs to the slot of the call that it answers. -/
theorem PingRun.slotted {es : List Event} (hrun : PingRun cfg es w) :
    Frames (fun r f => r.Slotted cfg.dialect f) w :=
  frames_of_run hrun (fun hextends h => h.mono hextends)
    (fun _ _ hok f hf => ⟨hok.1.labelled f hf, hok.2.2.reserved f hf⟩)

/-- No task is still opening the connection of an outstanding ping. -/
def PingsOpened (w : World) : Prop :=
  ∀ (k : ℕ) call c, w.rpc.Outstanding k → w.rpc.calls[k]? = some call → call.conn = some c →
    ∀ τ stage, w.opening? τ ≠ some (c, stage)

/-- A ping begins on a connection that is open, and no connection is opened twice. -/
theorem Move.pingsOpened (h : Move cfg w₀ e w w') (hcurrent : PingsCurrent w₀ e)
    (hinv : w.rpc.Inv cfg.dialect)
    (hbound : ∀ (k : ℕ) call c, w.rpc.calls[k]? = some call → call.conn = some c →
      c < w.conns.length)
    (hopened : PingsOpened w) : PingsOpened w' := by
  intro k call c hk hcall hconn τ stage hopening
  have hold (hlt : c < w.conns.length) (hnot : ∀ stage, w.opening? τ ≠ some (c, stage)) :
      False := by
    rcases h.opening with hsame | ⟨-, τ₁, hnew⟩
    · obtain ⟨stage₀, h₀⟩ := hsame τ c stage hopening
      exact hnot stage₀ h₀
    · rcases hnew τ c stage hopening with ⟨stage₀, h₀⟩ | ⟨-, hc⟩
      · exact hnot stage₀ h₀
      · omega
  rcases h.call_origin hcall with ⟨call₀, hcall₀, hcontinues⟩ | ⟨-, hbegins⟩
  · have hconn₀ : call₀.conn = some c := hcontinues.same_call.conn.symm.trans hconn
    have hk₀ := Rpc.Moves.outstanding h.rpc hinv (List.getElem?_eq_some_iff.mp hcall₀).1 hk
    exact hold (hbound k call₀ c hcall₀ hconn₀) (hopened k call₀ c hk₀ hcall₀ hconn₀ τ)
  · cases hbegins with
    | refused _ hnone =>
      rw [hnone] at hconn
      cases hconn
    | launched hbegun =>
      obtain ⟨call', hcall', hping, -⟩ := hk.ping
      obtain rfl := Option.some.inj (hcall'.symm.trans hcall)
      have howner (σ : ℕ) : call'.owner ≠ .replay σ := by
        intro howner
        obtain ⟨channel, params, hop⟩ := hbegun.fitting.replay σ howner
        rw [hping] at hop
        cases hop
      obtain rfl := hbegun.sends howner (by rw [hconn]; simp)
      have hsend : w.sendConn = some c := hbegun.framed.conn.symm.trans hconn
      have hruns := hcurrent.begins (hping ▸ hbegun.operation) c hsend
      have hlt : c < w.conns.length := by
        have hopen : w.isOpen c = true := (Option.filter_eq_some_iff.mp hsend).2
        by_contra hge
        simp [World.isOpen, List.getElem?_eq_none (by omega : w.conns.length ≤ c)] at hopen
      exact hold hlt (hruns.not_opening τ)

/-- A call is bound to a connection that was built. -/
theorem Wired.bound (h : Wired w) (k : ℕ) (call : Call) (c : ℕ)
    (hcall : w.rpc.calls[k]? = some call) (hconn : call.conn = some c) : c < w.conns.length := by
  obtain ⟨⟨conn, hconn', -⟩, -⟩ := h.settled k call c hcall hconn
  exact (List.getElem?_eq_some_iff.mp hconn').1

/-- In every such run a ping is bound to a connection whose `open()` is over. -/
theorem PingRun.opened {es : List Event} (hrun : PingRun cfg es w) : PingsOpened w := by
  refine hrun.invariant_of (I := fun w => Sound cfg w ∧ Openings w ∧ Wired w) ?_ ?_ ?_
  · intro es' v hprefix
    exact ⟨sound_of_run hprefix, openings_of_run hprefix, wired_of_run hprefix⟩
  · intro k call c _ hcall
    simp [World.init] at hcall
  · rintro t e v ⟨hsound, hopenings, hwired⟩ - hopened hok hstep
    have hmoves := step_moves hsound.linked hstep
    clear hstep
    have hboth : Wired v ∧ PingsOpened v := by
      induction hmoves with
      | refl => exact ⟨hwired, hopened⟩
      | tail hchain hlast ih =>
        have hwired' :=
          hlast.wired hopenings (Moves.greeted hchain hopenings) hsound.rpc ih.1
        have hinv := (hsound.moves hchain).rpc
        exact ⟨hwired', hlast.pingsOpened hok.2.1 hinv ih.1.bound ih.2⟩
    exact hboth.2

/-- While the client runs on the connection of a ping, no pong of that ping is lost: it is unread
as long as the ping is outstanding. -/
def PongsUnread (w : World) : Prop :=
  ∀ (k : ℕ) call c conn (f : Inbound), w.rpc.Outstanding k → w.rpc.calls[k]? = some call →
    call.conn = some c → w.running = true → w.conn = some c → w.conns[c]? = some conn →
    f ∈ conn.received → f.Pongs k → w.Unread c f

/-- The dispatch of a pong settles its ping, and the end of the pump fails it. -/
theorem PongsUnread.step {w₀ : World} (h : PongsUnread w₀) (hsound : Sound cfg w₀)
    (hwired : Wired w₀) (hheld : w₀.rpc.PingHeld) (hopened : PingsOpened w₀)
    (hframes : Frames (fun r f => r.Slotted cfg.dialect f) w₀) (hserver : AnswersPings w₀ e)
    (hstep : step cfg w₀ e = some w) : PongsUnread w := by
  intro k call c conn f hk hcall hbound hrun hcurrent hconn hf hpongs
  have hmoves := step_moves hsound.linked hstep
  have hlt : k < w₀.rpc.calls.length := by
    rcases hmoves.received hconn hf with ⟨conn₀, hconn₀, hf₀⟩ | rfl
    · exact (hframes.received hconn₀ hf₀).1 k hpongs.1
    · exact hserver.labelled f rfl k hpongs.1
  have hk₀ := Rpc.Moves.outstanding hmoves.rpc hsound.rpc hlt hk
  have hcall₀ := List.getElem?_eq_getElem hlt
  obtain ⟨call', hcall', hsame⟩ := hmoves.extends k _ hcall₀
  obtain rfl := Option.some.inj (hcall'.symm.trans hcall)
  have hbound₀ := hsame.conn.symm.trans hbound
  obtain ⟨hrun₀, hcurrent₀⟩ :=
    Moves.runs_on hmoves (hwired.bound k _ c hcall₀ hbound₀) hrun hcurrent
  rcases received_step hsound hstep hconn hf with ⟨conn₀, hconn₀, hf₀⟩ | hinbox
  swap
  · exact .inl hinbox
  have hunread := h k _ c conn₀ f hk₀ hcall₀ hbound₀ hrun₀ hcurrent₀ hconn₀ hf₀ hpongs
  obtain ⟨fields, hraw⟩ := Dialect.raw_of_slotOf (d := cfg.dialect) (Dialect.slotOf_pong hpongs.2)
  rcases unread_step hsound hstep hrun₀ (hopened k _ c hk₀ hcall₀ hbound₀) ⟨_, hraw⟩ hunread with
    hunread' | ⟨σ, hres⟩ | ⟨exc, hfails⟩
  · exact hunread'
  · have hresult := hres.settles hheld hpongs.2 hk₀ hstep
    rw [hk.pending] at hresult
    cases hresult
  · have hfailed := hheld.failAll hk₀ (World.asConnectionError exc)
    rw [← hfails, hk.pending] at hfailed
    cases hfailed

/-- A pong that arrived and was not resolved is still to be read. -/
theorem PingRun.unread {es : List Event} (hrun : PingRun cfg es w) : PongsUnread w := by
  refine hrun.invariant_of (I := fun w => Sound cfg w ∧ Wired w ∧ w.rpc.PingHeld ∧
    PingsOpened w ∧ Frames (fun r f => r.Slotted cfg.dialect f) w) ?_ ?_ ?_
  · intro es' v hprefix
    exact ⟨sound_of_run hprefix, wired_of_run hprefix, PingRun.held hprefix,
      PingRun.opened hprefix, PingRun.slotted hprefix⟩
  · intro k call c conn f _ hcall
    simp [World.init] at hcall
  · rintro t e v ⟨hsound, hwired, hheld, hopened, hframes⟩ - hunread hok hstep
    exact hunread.step hsound hwired hheld hopened hframes hok.1 hstep

/-- No ping waits any longer once its pong was dispatched. -/
def Answered (w : World) : Prop :=
  ∀ (k c : ℕ) (conn : Connection) (f : Inbound), w.conns[c]? = some conn →
    f ∈ conn.resolved → f.Pongs k → ¬w.rpc.Outstanding k

/-- A step dispatches a pong into the slot that its ping holds. -/
theorem Answered.step {w₀ : World} (h : Answered w₀) (hsound : Sound cfg w₀)
    (hheld : w₀.rpc.PingHeld) (hframes : Frames (fun r f => r.Slotted cfg.dialect f) w₀)
    (hstep : step cfg w₀ e = some w) : Answered w := by
  intro k c conn f hconn hf hpongs hk
  have hmoves := step_moves hsound.linked hstep
  rcases hmoves.resolved hconn hf with ⟨conn₀, hconn₀, hf₀⟩ | ⟨σ, hres⟩
  · have hlt := (hframes.resolved hconn₀ hf₀).1 k hpongs.1
    have hk₀ := hmoves.rpc.outstanding hsound.rpc hlt hk
    exact h k c conn₀ f hconn₀ hf₀ hpongs hk₀
  · obtain ⟨a, hb⟩ := hres.body
    have hlt := (hframes.hand (τ := σ) (f := f) (by rw [hb]; rfl)).1 k hpongs.1
    have hk₀ := Rpc.Moves.outstanding hmoves.rpc hsound.rpc hlt hk
    have hresult := hres.settles hheld hpongs.2 hk₀ hstep
    rw [hk.pending] at hresult
    cases hresult

/-- Every pong that the dispatch resolved has settled the ping that it answers. -/
theorem PingRun.answered {es : List Event} (hrun : PingRun cfg es w) : Answered w := by
  refine hrun.invariant_of (I := fun w => Sound cfg w ∧ w.rpc.PingHeld ∧
    Frames (fun r f => r.Slotted cfg.dialect f) w) ?_ ?_ ?_
  · intro es' v hprefix
    exact ⟨sound_of_run hprefix, PingRun.held hprefix, PingRun.slotted hprefix⟩
  · intro k c conn f hconn
    simp [World.init] at hconn
  · intro t e v ht _ hanswered _ hstep
    exact hanswered.step ht.1 ht.2.1 ht.2.2 hstep

/-- The server's answers keep every ping that is attended to from timing out. -/
theorem PongsUnread.noPingTimesOut (h : PongsUnread w) (hsound : Sound cfg w)
    (hserver : AnswersPings w e) (hcurrent : PingsCurrent w e) (hattended : PingsAttended cfg w e) :
    NoPingTimesOut w e := by
  intro k call hcall hping hends
  obtain ⟨rfl, ⟨deadline, hphase⟩, hpending⟩ := hends.timedOut hsound.rpc
  obtain ⟨c, hbound, conn, hconn, hanswers⟩ := hserver.in_time k rfl call hcall hping
  obtain ⟨hopen, hread⟩ := hattended.attended k rfl call hcall hping c hbound conn hconn
  rcases hanswers with hclosed | ⟨f, hf, hpongs⟩
  · rw [hopen] at hclosed
    cases hclosed
  · have hruns := hcurrent.fires k rfl call hcall hping c hbound
    have hended : call.phase.isEnded = false := by rw [hphase]; rfl
    exact hread f hf hpongs (h k call c conn f ⟨⟨call, hcall, hping, hended⟩, hpending⟩ hcall
      hbound hruns.running hruns.current hconn hf hpongs)

/-- No ping has timed out, and the heartbeat closes no connection. -/
structure PingsInTime (w : World) : Prop where
  calls : ∀ (k : ℕ) (call : Call), w.rpc.calls[k]? = some call → call.op = .ping →
    call.phase ≠ .ended (.raised .timeoutError)
  bodies : ∀ η c, w.body η ≠ .heartbeat (.closing c)

/-- So no ping times out, and the heartbeat closes no connection. -/
theorem PingRun.in_time {es : List Event} (hrun : PingRun cfg es w) : PingsInTime w := by
  refine hrun.invariant_of (I := fun w => Sound cfg w ∧ PongsUnread w ∧
    ∀ (k : ℕ) (call : Call), w.rpc.calls[k]? = some call → Fitting call) ?_ ?_ ?_
  · intro es' v hprefix
    exact ⟨sound_of_run hprefix, PingRun.unread hprefix, fun _ _ => fitting_of_run hprefix⟩
  · refine ⟨?_, ?_⟩
    · intro k call hcall
      simp [World.init] at hcall
    · intro η c hb
      simp [World.init, World.body] at hb
  · rintro t e v ⟨hsound, hunread, hfitting⟩ - ⟨hcalls, hbodies⟩ hok hstep
    have hmoves := step_moves hsound.linked hstep
    have hnone := hunread.noPingTimesOut hsound hok.1 hok.2.1 hok.2.2
    exact ⟨hnone.calls hmoves hcalls, hnone.bodies hsound hfitting hmoves hbodies⟩

/-- In every run in which the pings of the connection that the client runs on do not overlap and
are attended to, against a server that answers them in time, every ping is settled by a pong,
none times out, the heartbeat closes no connection, and the end of a connection fails the ping
that waits. -/
theorem pings_answered {es : List Event}
    (hrun : Transition.Run (step cfg)
      (fun w e => AnswersPings w e ∧ PingsCurrent w e ∧ PingsAttended cfg w e) World.init es w) :
    PingsAnswered cfg w := by
  have hheld := PingRun.held hrun
  have hsound : Sound cfg w := sound_of_run hrun
  have hin_time := PingRun.in_time hrun
  constructor
  case answered =>
    intro k c conn f hconn hf hpongs
    exact PingRun.answered hrun k c conn f hconn hf hpongs
  case settles =>
    intro e w' k σ c f hk hres hpong hstep
    exact hres.settles hheld hpong hk hstep
  case by_pong =>
    intro k call f hcall hping hf
    obtain ⟨call', hcall', hslot⟩ := hsound.rpc.settled hf
    obtain rfl := Option.some.inj (hcall'.symm.trans hcall)
    obtain ⟨n, -, hframed⟩ := hsound.rpc.framed hcall
    rcases Rpc.key_of_framed hframed with ⟨hreq, -⟩ | ⟨-, hkey⟩
    · rw [hping] at hreq
      cases hreq
    · rw [hkey] at hslot
      exact ((PingRun.slotted hrun).future hf).pong hslot
  case in_time =>
    intro k call hcall hping
    exact hin_time.calls k call hcall hping
  case kept =>
    intro η c
    exact hin_time.bodies η c
  case failed =>
    intro σ k w' hk hrunning hstep
    exact hheld.failed hk hrunning hstep

/-- The pong that answers a call, as the Kraken socket sends it. -/
def pongTo (k : ℕ) : Inbound := ⟨.json (.obj [("event", .str "pong")]), some k⟩

/-- A client with a heartbeat starts, and its heartbeat sends the first ping. -/
def heartbeatEvents : List Event := startEvents ++ [.run 2, .tick 30, .wake 2, .sent 0]

/-- A heartbeat pings after thirty seconds, and its pong settles the ping. -/
theorem pings_answered_heartbeat :
    ∃ w, PingsAnswered (.sample .kraken (some 30)) w ∧
      w.rpc.future 0 = some (.result (pongTo 0)) := by
  obtain ⟨w, hrun, hsettled⟩ :
      ∃ w, Transition.Run (step (.sample .kraken (some 30)))
        (fun w e => AnswersPings w e ∧ PingsCurrent w e ∧
          PingsAttended (.sample .kraken (some 30)) w e) World.init
        (heartbeatEvents ++ [.frame 0 (pongTo 0), .recv 1, .callbackEnd 1 .returned, .resume 0])
        w ∧ w.rpc.future 0 = some (.result (pongTo 0)) :=
    Transition.Run.exists_of_exec (by decide +kernel)
  exact ⟨w, pings_answered hrun, hsettled⟩

/-- The application pings while the heartbeat waits for its pong. The server answers both
pings at once, in order, and the pump dispatches both pongs. -/
def overlappingPings : List Event :=
  heartbeatEvents ++
    [.call .ping, .sent 1, .frame 0 (pongTo 0), .frame 0 (pongTo 1), .recv 1,
      .callbackEnd 1 .returned, .recv 1, .callbackEnd 1 .returned, .resume 1, .tick 10, .timeout 0]

/-- The handler of another message is still running when the pong arrives, and runs until the
timer of the ping fires. -/
def slowCallback : List Event :=
  heartbeatEvents ++
    [.frame 0 ⟨.json (.obj [("channel", .str "ticker")]), none⟩, .recv 1, .frame 0 (pongTo 0),
      .tick 10, .timeout 0]

/-- In a run against a server that answers every ping in time the heartbeat's ping times out, and
the heartbeat closes the healthy connection, on which the pong has arrived. -/
def ClosesHealthy (es : List Event) : Prop :=
  ∃ w, Transition.Run (step (.sample .kraken (some 30)))
      (fun w e => AnswersPings w e ∧ PingsCurrent w e) World.init es w ∧
    (∃ call ∈ w.rpc.calls[0]?, call.op = .ping ∧
      call.phase = .ended (.raised .timeoutError)) ∧
    w.body 2 = .heartbeat (.closing 0) ∧
    ∃ conn ∈ w.conns[0]?, conn.sock = .closing ∧ pongTo 0 ∈ conn.received

/-- Two pings overlap, or a handler keeps the supervise task from reading the pong. -/
theorem heartbeat_closes_healthy_connection :
    ClosesHealthy overlappingPings ∧ ClosesHealthy slowCallback :=
  ⟨Transition.Run.exists_of_exec (by decide +kernel),
    Transition.Run.exists_of_exec (by decide +kernel)⟩

end ProxyClient.Websocket
