import ProxyClient.Websocket.Reachable

/-!
# Nothing before the handshake

Until the Proxy has accepted the handshake on a connection, only the handshake frame should be
sent on it, and the client should not count as connected. The source publishes a connection in
`_conn` before `open()` runs, and `is_open` looks at the socket only. Both halves of the law
therefore rest on what happens between the opening of the socket and the acceptance, and each
half is characterised here by a condition on the steps of a run.
-/

namespace ProxyClient.Websocket

open Transition

variable {cfg : Config} {w₀ w w' : World} {e : Event} {τ c : ℕ}

/-- A connection on which the Proxy has not accepted the handshake. -/
def World.Unaccepted (w : World) (c : ℕ) : Prop :=
  ∃ conn ∈ w.conns[c]?, conn.connectedAt = none

instance (w : World) (c : ℕ) : Decidable (w.Unaccepted c) :=
  inferInstanceAs (Decidable (∃ conn ∈ w.conns[c]?, conn.connectedAt = none))

/-- No frame but that of the handshake was sent on a connection before the acceptance. -/
def AuthFirst (w : World) : Prop :=
  ∀ (c : ℕ) (conn : Connection), w.conns[c]? = some conn → conn.connectedAt = none →
    ∀ frame ∈ conn.sent, frame = .auth

/-- The client does not count as connected before the acceptance. -/
def NotConnected (w : World) : Prop :=
  ∀ c, w.conn = some c → w.Unaccepted c → w.isConnected = false

/-- The connection whose socket a label opens. -/
def World.connects (w : World) : Event → Option ℕ
  | .connected τ =>
    match w.opening? τ with
    | some (c, .connecting) => some c
    | _ => none
  | _ => none

/-- The connection on which a label ends the handshake with the acceptance. -/
def World.accepts (w : World) : Event → Option ℕ
  | .authReply τ =>
    match w.opening? τ with
    | some (c, .awaitingReply _) =>
      match w.handshake? c with
      | some (.ok _) => some c
      | _ => none
    | _ => none
  | _ => none

/-- Nothing is sent while `_conn` holds a connection with a live socket that is not accepted,
except after the acceptance in the same step. -/
def Patient (cfg : Config) (w : World) (e : Event) : Prop :=
  w.sends cfg e = true → ∀ c ∈ w.conn, w.Unaccepted c → w.sock c = .live → w.accepts e = some c

instance (cfg : Config) (w : World) (e : Event) : Decidable (Patient cfg w e) :=
  inferInstanceAs (Decidable (w.sends cfg e = true → ∀ c ∈ w.conn, w.Unaccepted c →
    w.sock c = .live → w.accepts e = some c))

/-- A socket opens only for a connection that `_conn` does not hold. -/
def Unpublished (w : World) (e : Event) : Prop :=
  ∀ c ∈ w.connects e, w.Unaccepted c → w.conn ≠ some c

instance (w : World) (e : Event) : Decidable (Unpublished w e) :=
  inferInstanceAs (Decidable (∀ c ∈ w.connects e, w.Unaccepted c → w.conn ≠ some c))

/-! ## Steps that keep the law -/

/-- An `open()` that returns has had its handshake accepted. -/
theorem OpenReturns.accepts (h : OpenReturns w τ c e) : w.accepts e = some c := by
  obtain ⟨deadline, hstage⟩ := h.stage
  simp [World.accepts, h.event, hstage, h.reply]

/-- The acceptance of a handshake is never taken back. -/
theorem Alters.connectedAt {f : Connection → Connection} (h : Alters w₀ e w c f)
    {conn : Connection} (hnone : (f conn).connectedAt = none) : conn.connectedAt = none := by
  cases h with
  | message => rwa [Connection.connectedAt_write] at hnone
  | connect => rwa [Connection.connectedAt_write] at hnone
  | beginClose =>
    unfold Connection.beginClose at hnone
    split at hnone <;> exact hnone
  | endClose =>
    unfold Connection.endClose at hnone
    split at hnone <;> exact hnone
  | accept => cases hnone
  | _ => exact hnone

/-- Beside the calls, a connection is sent the handshake frame and messages. -/
theorem Alters.sent {f : Connection → Connection} (h : Alters w₀ e w c f) {conn : Connection}
    {frame : Sent} (hframe : frame ∈ (f conn).sent) :
    frame ∈ conn.sent ∨ frame = .auth ∨
      ∃ message, e = .send message ∧ w = w₀ ∧ w.sendConn = some c ∧ conn.sock = .live := by
  cases h with
  | message he hw hsend =>
    rcases Connection.mem_sent_write hframe with hold | ⟨-, hlive⟩
    · exact .inl hold
    · exact .inr (.inr ⟨_, he, hw, hsend, hlive⟩)
  | beginClose =>
    unfold Connection.beginClose at hframe
    split at hframe <;> exact .inl hframe
  | endClose =>
    unfold Connection.endClose at hframe
    split at hframe <;> exact .inl hframe
  | connect =>
    rcases Connection.mem_sent_write hframe with hold | ⟨hauth, -⟩
    · exact .inl hold
    · exact .inr (.inl hauth)
  | _ => exact .inl hframe

/-- A statement that sends does so on a connection that is accepted. -/
theorem Sends.accepted_of_live (h : Sends cfg w₀ e w) (hok : Patient cfg w₀ e)
    {conn : Connection} (hsend : w.sendConn = some c) (hconn : w.conns[c]? = some conn)
    (hlive : conn.sock = .live) : conn.connectedAt ≠ none := by
  intro hnone
  have hheld : w.conn = some c := (Option.filter_eq_some_iff.mp hsend).1
  have hsock : w.sock c = .live := by simp [World.sock, hconn, hlive]
  have hunaccepted : w.Unaccepted c := ⟨conn, hconn, hnone⟩
  cases h with
  | first hsends he hw =>
    subst hw
    have haccepts := hok hsends c hheld hunaccepted hsock
    unfold World.accepts at haccepts
    split at haccepts
    · exact he _ rfl
    · cases haccepts
  | @accepted τ c' conn' hsends hreturns hconn₀ hconn' hat hother =>
    by_cases hc : c = c'
    · subst hc
      obtain rfl := Option.some.inj (hconn.symm.trans hconn')
      simp [hnone] at hat
    · have hconn₀' : w₀.conns[c]? = some conn := (hother c hc).symm.trans hconn
      have haccepts := hok hsends c (hconn₀ ▸ hheld) ⟨conn, hconn₀', hnone⟩
        (by simp [World.sock, hconn₀', hlive])
      exact hc (Option.some.inj (haccepts.symm.trans hreturns.accepts))

/-- The moves of a step that waits for the acceptance add no frame but that of the handshake to
a connection that is not accepted. -/
theorem Move.authFirst (h : Move cfg w₀ e w w') (hok : Patient cfg w₀ e) (hauth : AuthFirst w) :
    AuthFirst w' := by
  intro c conn' hconn' hnone frame hframe
  rcases h.conn_cases hconn' with hold | ⟨f, conn, halters, hold, rfl⟩ |
    ⟨k, sent, conn, hold, rfl, hsend, hsends⟩ | ⟨-, rfl⟩
  · exact hauth c conn' hold hnone frame hframe
  · have hnone₀ := halters.connectedAt hnone
    rcases halters.sent hframe with hin | hframe | ⟨message, he, hw, hsend, hlive⟩
    · exact hauth c conn hold hnone₀ frame hin
    · exact hframe
    · have hsends : Sends cfg w₀ e w := .first (by rw [he]; rfl) (by simp [he]) hw
      exact absurd hnone₀ (hsends.accepted_of_live hok hsend hold hlive)
  · rw [Connection.connectedAt_write] at hnone
    rcases Connection.mem_sent_write hframe with hin | ⟨-, hlive⟩
    · exact hauth c conn hold hnone frame hin
    · exact absurd hnone (hsends.accepted_of_live hok hsend hold hlive)
  · cases hframe

/-- The client that a move leads to holds a connection it held before, or a fresh one. -/
theorem Move.held (h : Move cfg w₀ e w w') (hheld : w'.conn = some c)
    (hopen : w'.socketOpen c = true) : w.conn = some c := by
  have fresh (hc : w.conns.length = c) (hconns : w'.conns = w.conns ++ [({} : Connection)]) :
      w.conn = some c := by
    obtain ⟨conn, hconn, hsock⟩ := World.socketOpen_iff.mp hopen
    rw [hconns, ← hc, List.getElem?_concat_length] at hconn
    obtain rfl := Option.some.inj hconn
    cases hsock
  cases h with
  | start => exact fresh (Option.some.inj hheld) rfl
  | reconnect => exact fresh (Option.some.inj hheld) rfl
  | drop => cases hheld
  | endCall =>
    rw [endCall_eq] at hheld
    exact hheld
  | resume =>
    rw [endCall_eq] at hheld
    exact hheld
  | _ => exact hheld

/-- A connection with an open socket that is not accepted was so before a move, or the move opens
its socket. -/
theorem Move.unaccepted (h : Move cfg w₀ e w w') (hopen : w'.socketOpen c = true)
    (hnone : w'.Unaccepted c) : w.Unaccepted c := by
  obtain ⟨conn', hconn', hnone⟩ := hnone
  rcases h.conn_cases hconn' with hold | ⟨f, conn, halters, hold, rfl⟩ |
    ⟨k, frame, conn, hold, rfl, -⟩ | ⟨-, rfl⟩
  · exact ⟨conn', hold, hnone⟩
  · exact ⟨conn, hold, halters.connectedAt hnone⟩
  · exact ⟨conn, hold, by rwa [Connection.connectedAt_write] at hnone⟩
  · obtain ⟨conn, hconn, hsock⟩ := World.socketOpen_iff.mp hopen
    obtain rfl := Option.some.inj (hconn'.symm.trans hconn)
    cases hsock

/-- `is_connected` looks at the socket only, and not at the handshake. -/
theorem Attached.isConnected (hattached : Attached w) (hheld : w.conn = some c) :
    w.isConnected = w.socketOpen c := by
  have hiff : w.isOpen c = true ↔ w.socketOpen c = true := by
    refine ⟨?_, hattached.isOpen⟩
    intro hopen
    cases hconn : w.conns[c]? with
    | none => simp [World.isOpen, hconn] at hopen
    | some conn =>
      have hsock : conn.attached = true ∧ (conn.sock = .live ∨ conn.sock = .closing) := by
        simpa [World.isOpen, hconn, Connection.isOpen] using hopen
      exact World.socketOpen_iff.mpr ⟨conn, hconn, Sock.isOpen_iff.mpr hsock.2⟩
  simpa [World.isConnected, hheld] using Bool.eq_iff_iff.mpr hiff

/-- The moves of a step that opens no socket for the connection that is held. -/
theorem Move.notConnected (h : Move cfg w₀ e w w') (hok : Unpublished w₀ e)
    (hattached : Attached w) (hnot : NotConnected w) : NotConnected w' := by
  intro c hheld' hnone'
  rw [(h.attached hattached).isConnected hheld']
  by_contra hopen'
  have hopen' : w'.socketOpen c = true := by simpa using hopen'
  have hheld := h.held hheld' hopen'
  have hnone := h.unaccepted hopen' hnone'
  rcases h.socketOpen hopen' with hopen | ⟨τ, he, hw, hopening⟩
  · have hclosed := hnot c hheld hnone
    rw [hattached.isConnected hheld, hopen] at hclosed
    cases hclosed
  · subst hw
    exact hok c (by simp [World.connects, he, hopening]) hnone hheld

/-! ## Steps that break it -/

/-- A connection with a live socket on which no handshake was accepted. -/
structure Waiting (w : World) (c : ℕ) (conn : Connection) : Prop where
  built : w.conns[c]? = some conn
  live : conn.sock = .live
  attached : conn.attached = true
  unaccepted : conn.connectedAt = none

/-- `send()` finds such a connection open, although the handshake is not accepted. -/
theorem Waiting.sendConn {conn : Connection} (h : Waiting w c conn) (hheld : w.conn = some c) :
    w.sendConn = some c := by
  have hopen : w.isOpen c = true := by
    simp [World.isOpen, h.built, Connection.isOpen, h.attached, h.live]
  exact Option.filter_eq_some_iff.mpr ⟨hheld, hopen⟩

/-- Updates of other connections leave it as it is. -/
theorem Waiting.modifyConn {conn : Connection} {c' : ℕ} {f : Connection → Connection}
    (h : Waiting w c conn) (hne : c ≠ c') : Waiting (w.modifyConn c' f) c conn :=
  ⟨(World.getElem?_modifyConn_of_ne f hne).trans h.built, h.live, h.attached, h.unaccepted⟩

/-- A frame beside that of the handshake breaks the law. -/
theorem Waiting.breaks {conn : Connection} (h : Waiting w c conn) (frame : Sent)
    (hne : frame ≠ .auth) (hconns : w'.conns[c]? = w.conns[c]?.map (·.write frame)) :
    ¬AuthFirst w' := by
  intro hauth
  rw [h.built] at hconns
  have hnone : (conn.write frame).connectedAt = none := by
    rw [Connection.connectedAt_write, h.unaccepted]
  have hmem : frame ∈ (conn.write frame).sent := by simp [Connection.write, h.live]
  exact hne (hauth c _ hconns hnone frame hmem)

/-- `request()` sends what can be framed on the connection that it finds open. -/
theorem conns_perform (owner : Owner) {op : Operation} (hsend : w.sendConn = some c)
    (hframed : (op.requestFrame cfg.dialect (w.rpc.draw op).pending.counter).isOk = true) :
    ∃ k frame, (w.perform cfg owner op).2 = some k ∧
      (w.perform cfg owner op).1.conns = (w.modifyConn c (·.write (.call k frame))).conns := by
  rcases perform_cases cfg w owner op with ⟨err, herr, -⟩ | ⟨call, -, -, hcall, hconn, -⟩ |
    ⟨call, c', -, -, hcall, hconn, hperform⟩
  · rw [herr] at hframed
    cases hframed
  · rw [hcall.conn, hsend] at hconn
    cases hconn
  · rw [hcall.conn, hsend] at hconn
    obtain rfl := Option.some.inj hconn
    exact ⟨_, _, by rw [hperform], by rw [hperform]; rfl⟩

/-- A request that can be framed breaks the law. -/
theorem Waiting.perform {conn : Connection} {op : Operation} (h : Waiting w c conn)
    (owner : Owner) (hheld : w.conn = some c)
    (hframed : (op.requestFrame cfg.dialect (w.rpc.draw op).pending.counter).isOk = true) :
    ∃ k, (w.perform cfg owner op).2 = some k ∧
      ∀ w' : World, w'.conns = (w.perform cfg owner op).1.conns → ¬AuthFirst w' := by
  obtain ⟨k, frame, hk, hconns⟩ := conns_perform owner (h.sendConn hheld) hframed
  refine ⟨k, hk, ?_⟩
  intro w' hw'
  apply h.breaks (.call k frame) (by simp)
  rw [hw', hconns, World.getElem?_modifyConn_self]

/-- The replay of a subscription breaks the law. -/
theorem Waiting.replayNext {conn : Connection} {σ attempt : ℕ} {entries : List Entry}
    (h : Waiting w c conn) (hheld : w.conn = some c) (hne : entries ≠ []) :
    ¬AuthFirst (w.replayNext cfg σ attempt entries) := by
  cases entries with
  | nil => exact absurd rfl hne
  | cons entry rest =>
    obtain ⟨channel, params⟩ := entry
    have hframed : ((Operation.subscribe channel (some params) false).requestFrame cfg.dialect
        (w.rpc.draw (.subscribe channel (some params) false)).pending.counter).isOk = true := by
      obtain ⟨fk, hfk⟩ := requestFrame_subscribe cfg.dialect channel (some params) false
        (w.rpc.draw (.subscribe channel (some params) false)).pending.counter
      rw [hfk]
      rfl
    obtain ⟨k, hk, hbreaks⟩ := h.perform (.replay σ) hheld hframed
    unfold World.replayNext
    simp only
    split
    · rename_i w₁ k₁ hperform
      exact hbreaks _ (by rw [hperform]; rfl)
    · rename_i w₁ hperform
      rw [hperform] at hk
      cases hk

/-- The replay after a reconnect on another connection breaks the law. -/
theorem Waiting.opened {conn : Connection} {c' attempt : ℕ} {pc : SuperviseAt}
    (h : Waiting w c conn) (hheld : w.conn = some c) (hne : c ≠ c')
    (hb : w.body τ = .supervise attempt pc) (hsubs : w.subscriptions ≠ []) :
    ¬AuthFirst (w.opened cfg τ c') := by
  unfold World.opened
  simp only
  set w₁ : World := w.modifyConn c' (fun conn =>
    { conn with connectedAt := some w.now, registryAtOpen := w.subscriptions })
  have hb₁ : w₁.body τ = .supervise attempt pc := hb
  have hwait₁ : Waiting w₁ c conn := h.modifyConn hne
  rw [hb₁]
  exact hwait₁.replayNext hheld hsubs

/-- The end of `open()` sends only on the connection that it accepts. -/
theorem Waiting.authReply {conn : Connection} (h : Waiting w c conn) (hheld : w.conn = some c)
    (hsends : w.sends cfg (.authReply τ) = true) (hstep : step cfg w (.authReply τ) = some w')
    (hauth : AuthFirst w') : w.accepts (.authReply τ) = some c := by
  simp only [World.sends] at hsends
  split at hsends
  · rename_i attempt c' stage hb
    split at hsends
    · rename_i accepted hreply
      have hopening : w.opening? τ = some (c', stage) := by simp [World.opening?, hb]
      cases opens_of_openStep hopening rfl (step_guarded hstep) with
      | raised _ hne => exact absurd rfl hne
      | refused _ _ hraises =>
        cases hraises with
        | refused herror =>
          rw [hreply] at herror
          cases herror
      | @accepted f inbox hinbox hreturns =>
        obtain ⟨deadline, hawaiting⟩ := hreturns.stage
        by_cases hc : c = c'
        · simp [World.accepts, hawaiting, hreply, hc]
        · have hwait : Waiting (w.modifyConn c' (fun conn => { conn with inbox := inbox })) c
            conn := h.modifyConn hc
          exact absurd hauth (hwait.opened hheld hc hb (by simpa using hsends))
    · cases hsends
  · cases hsends

/-- A step of a client whose sockets are attached keeps the law only if it waits. -/
theorem patient_of_step (hattached : Attached w) (h : step cfg w e = some w')
    (hauth : AuthFirst w') : Patient cfg w e := by
  intro hsends c hheld hnone hsock
  obtain ⟨conn, hconn, hnone⟩ := hnone
  have hconn : w.conns[c]? = some conn := hconn
  have hlive : conn.sock = .live := by simpa [World.sock, hconn] using hsock
  have hwait : Waiting w c conn :=
    ⟨hconn, hlive, hattached c conn hconn (by rw [hlive]; rfl), hnone⟩
  cases e with
  | send message =>
    simp only [step, hwait.sendConn hheld] at h
    cases h
    exact absurd hauth
      (hwait.breaks (.message message) (by simp) (World.getElem?_modifyConn_self _ _ _))
  | call op =>
    obtain ⟨k, -, hbreaks⟩ := hwait.perform .application hheld hsends
    simp only [step] at h
    cases h
    exact absurd hauth (hbreaks _ rfl)
  | callbackCall σ op =>
    obtain ⟨k, hk, hbreaks⟩ := hwait.perform (.callback σ) hheld hsends
    have hcall : w.callbackCallStep cfg σ op = some w' := step_guarded h
    unfold World.callbackCallStep at hcall
    split at hcall
    · split at hcall
      · rename_i w₁ k₁ hperform
        cases hcall
        exact absurd hauth (hbreaks _ (by rw [hperform]; rfl))
      · rename_i w₁ hperform
        rw [hperform] at hk
        cases hk
    · cases hcall
  | wake τ =>
    have hwake : w.wakeStep cfg τ = some w' := step_guarded h
    simp only [World.sends] at hsends
    split at hsends
    · rename_i wake hb
      have hframed : (Operation.ping.requestFrame cfg.dialect
          (w.rpc.draw .ping).pending.counter).isOk = true := rfl
      obtain ⟨k, hk, hbreaks⟩ := hwait.perform (.heartbeat τ) hheld hframed
      simp only [World.wakeStep, hb, World.heartbeatPing, hsends, if_true] at hwake
      split at hwake
      · cases hwake
        split at hauth
        · rename_i w₁ k₁ hperform
          exact absurd hauth (hbreaks _ (by rw [hperform]; rfl))
        · rename_i w₁ hperform
          rw [hperform] at hk
          cases hk
      · cases hwake
    · rename_i attempt wake rest hb
      simp only [World.wakeStep, hb] at hwake
      split at hwake
      · cases hwake
        exact absurd hauth (hwait.replayNext hheld (by simpa using hsends))
      · cases hwake
    · cases hsends
  | authReply τ => exact hwait.authReply hheld hsends h hauth
  | _ => cases hsends

/-- A step keeps the law if and only if it waits for the acceptance. -/
theorem authFirst_step (hsound : Sound cfg w) (hauth : AuthFirst w)
    (h : step cfg w e = some w') : AuthFirst w' ↔ Patient cfg w e := by
  refine ⟨patient_of_step hsound.attached h, ?_⟩
  intro hok
  have hmoves := step_moves hsound.linked h
  clear h
  induction hmoves with
  | refl => exact hauth
  | tail _ hlast ih => exact hlast.authFirst hok ih

/-- The step that opens the socket of a connection publishes it no further. -/
theorem connects_step (hconnects : w.connects e = some c) (h : step cfg w e = some w') :
    w'.conn = w.conn ∧ w'.conns[c]? = w.conns[c]?.map (fun conn => conn.connect.write .auth) := by
  have staged (v : World) (τ : ℕ) (stage : OpenStage) :
      (v.setStage τ stage).conn = v.conn ∧ (v.setStage τ stage).conns = v.conns := by
    unfold World.setStage
    split <;> exact ⟨rfl, rfl⟩
  unfold World.connects at hconnects
  split at hconnects
  · rename_i τ
    split at hconnects
    · rename_i c' hopening
      obtain rfl := Option.some.inj hconnects
      have hopen : w.openStep cfg τ (.connected τ) = some w' := step_guarded h
      simp only [World.openStep, hopening] at hopen
      cases hopen
      obtain ⟨hconn, hconns⟩ := staged
        (w.modifyConn c' (fun conn => conn.connect.write .auth)) τ .sendingAuth
      exact ⟨hconn, by rw [hconns, World.getElem?_modifyConn_self]⟩
    · cases hconnects
  · cases hconnects

/-- A step keeps the client from counting as connected too early if and only if it opens no
socket for the connection that is held. -/
theorem notConnected_step (hsound : Sound cfg w) (hnot : NotConnected w)
    (h : step cfg w e = some w') : NotConnected w' ↔ Unpublished w e := by
  constructor
  · intro hnot' c hconnects hnone hheld
    obtain ⟨conn, hconn, hnone⟩ := hnone
    have hconn : w.conns[c]? = some conn := hconn
    obtain ⟨hheld', hconn'⟩ := connects_step hconnects h
    rw [hheld] at hheld'
    rw [hconn] at hconn'
    have hnone' : w'.Unaccepted c := ⟨_, hconn', hnone⟩
    have hopen' : w'.isConnected = true := by
      simp [World.isConnected, hheld', World.isOpen, hconn', Connection.isOpen, Connection.connect]
    rw [hnot' c hheld' hnone'] at hopen'
    cases hopen'
  · intro hok
    have hmoves := step_moves hsound.linked h
    clear h
    induction hmoves with
    | refl => exact hnot
    | tail hchain hlast ih => exact hlast.notConnected hok (hsound.moves hchain).attached ih

/-- In every run, no frame is sent before the acceptance of the handshake if and only if every
step waits for it, and the client does not count as connected before it if and only if no step
opens a socket for the connection that `_conn` holds. -/
theorem handshake_first {es : List Event} (hrun : Run (step cfg) always World.init es w) :
    (Throughout (step cfg) World.init es AuthFirst ↔
        Run (step cfg) (Patient cfg) World.init es w) ∧
      (Throughout (step cfg) World.init es NotConnected ↔
        Run (step cfg) Unpublished World.init es w) := by
  refine ⟨hrun.throughout_iff ?_ ?_, hrun.throughout_iff ?_ ?_⟩
  · intro c conn hconn
    simp [World.init] at hconn
  · intro es' t e u ht hauth hstep
    exact authFirst_step (sound_of_run ht) hauth hstep
  · intro c hheld
    cases hheld
  · intro es' t e u ht hnot hstep
    exact notConnected_step (sound_of_run ht) hnot hstep

/-- `stop()` is called while `start()` waits for its socket. -/
def abandonedEvents : List Event := [.start, .stop, .connected 0]

/-- The first half holds of a client that starts, and the second of one that is stopped before it
connects. -/
theorem handshake_first_sample :
    Throughout (step (.sample .kraken none)) World.init startEvents AuthFirst ∧
      Throughout (step (.sample .kraken none)) World.init abandonedEvents NotConnected := by
  obtain ⟨w, hrun⟩ :
      ∃ w, Run (step (.sample .kraken none)) always World.init startEvents w :=
    Run.exists_of_isSome (by decide +kernel)
  obtain ⟨w', hrun'⟩ :
      ∃ w, Run (step (.sample .kraken none)) always World.init abandonedEvents w :=
    Run.exists_of_isSome (by decide +kernel)
  obtain ⟨v, hpatient⟩ :
      ∃ w, Run (step (.sample .kraken none)) (Patient (.sample .kraken none)) World.init
        startEvents w :=
    Run.exists_of_isSome (by decide +kernel)
  obtain ⟨v', hunpublished⟩ :
      ∃ w, Run (step (.sample .kraken none)) Unpublished World.init abandonedEvents w :=
    Run.exists_of_isSome (by decide +kernel)
  obtain rfl := hrun.unique hpatient
  obtain rfl := hrun'.unique hunpublished
  exact ⟨(handshake_first hrun).1.mpr hpatient, (handshake_first hrun').2.mpr hunpublished⟩

/-- The application sends a message while `start()` waits for the reply to the handshake. -/
def earlyEvents : List Event := [.start, .connected 0, .send [("method", .str "add_order")]]

/-- The message follows the handshake frame before the Proxy has answered. -/
theorem message_before_acceptance :
    ∃ w, Run (step (.sample .kraken none)) always World.init earlyEvents w ∧
      w.isConnected = true ∧ ¬AuthFirst w ∧ ¬NotConnected w := by
  obtain ⟨w, hrun, hconnected, hheld, conn, hconn, hnone, hsent⟩ :
      ∃ w, Run (step (.sample .kraken none)) always World.init earlyEvents w ∧
        w.isConnected = true ∧ w.conn = some 0 ∧
        ∃ conn ∈ w.conns[0]?, conn.connectedAt = none ∧
          conn.sent = [.auth, .message [("method", .str "add_order")]] :=
    Run.exists_of_exec (by decide +kernel)
  refine ⟨w, hrun, hconnected, ?_, ?_⟩
  · intro hauth
    have hframe := hauth 0 conn hconn hnone (.message [("method", .str "add_order")])
      (by rw [hsent]; simp)
    cases hframe
  · intro hnot
    rw [hnot 0 hheld ⟨conn, hconn, hnone⟩] at hconnected
    cases hconnected

end ProxyClient.Websocket
