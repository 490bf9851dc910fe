import ProxyClient.Websocket.Sockets
import ProxyClient.Websocket.Pings

/-!
# The way of a `stop()`

`stop()` cancels the supervise task and awaits it, cancels the heartbeat task and awaits it,
closes the connection and cancels the calls in flight. At each of its suspension points the
invariant says what it has still to end, as long as the tasks of the client belong to one session
and `_conn` holds its only socket.
-/

namespace ProxyClient.Websocket

variable {cfg : Config} {w w' : World} {e : Event} {τ σ c k : ℕ}

/-! ## Invariants -/

/-- The tasks of a client belong to one session. -/
structure OneSession (w : World) : Prop where
  leader : ∀ τ τ', (w.body τ).leads = true → (w.body τ').leads = true → τ = τ'
  stop : ∀ τ τ', (w.body τ).role = .stop → (w.body τ').role = .stop → τ = τ'
  supervise : ∀ σ, (w.body σ).role = .supervise → w.superviseTask = some σ
  heartbeat : ∀ η, (w.body η).role = .heartbeat → w.heartbeatTask = some η
  /-- No heartbeat task is live while a `start()` is under way. -/
  start : ∀ τ η, (w.body τ).role = .start → (w.body η).role ≠ .heartbeat

/-- `_conn` holds the only open socket and the connection that a task works on. -/
structure Holds (w : World) : Prop where
  held : ∀ c, w.socketOpen c = true → w.conn = some c
  works : ∀ τ c, (w.body τ).worksOn = some c → w.conn = some c

/-- What is left to be ended by a `stop()` at its suspension point. -/
def StopAt.Sees (w : World) : StopAt → Prop
  | awaitingSupervise σ heartbeat => w.superviseTask = some σ ∧ heartbeat = w.heartbeatTask
  | awaitingHeartbeat η => (∀ τ, (w.body τ).role ≠ .supervise) ∧ w.heartbeatTask = some η
  | closing c =>
    (∀ τ, (w.body τ).role ≠ .supervise) ∧ (∀ τ, (w.body τ).role ≠ .heartbeat) ∧ w.conn = some c

/-- A client that has ceased to run has nothing left but its heartbeat task. -/
structure Ceased (w : World) : Prop where
  sockets : ∀ c, w.socketOpen c = false
  supervise : ∀ τ, (w.body τ).role ≠ .supervise
  calls : ∀ k, ¬w.rpc.Waits k

/-- The invariant: while a `stop()` is under way it sees all that is left, and otherwise a
client that does not run has ceased to. -/
structure Winds (w : World) : Prop where
  session : OneSession w
  stopping : ∀ τ pc, w.body τ = .stop pc → w.running = false ∧ Holds w ∧ pc.Sees w
  idle : w.running = false → (∀ τ, (w.body τ).role ≠ .stop) → Ceased w

/-- A client that was stopped and not started since. -/
structure WindsUp (w : World) : Prop where
  stopped : w.running = false
  heartbeat : (∃ τ, (w.body τ).role = .stop) ∨ ∀ τ, (w.body τ).role ≠ .heartbeat

/-- The leaders of a session are its `start()` and its supervise task. -/
theorem Body.leads_iff {b : Body} : b.leads = true ↔ b.role = .start ∨ b.role = .supervise := by
  cases b <;> simp [Body.leads, Body.role]

/-- A task in the role of a `stop()` is at one of the suspension points of `stop()`. -/
theorem Body.role_eq_stop {b : Body} : b.role = .stop ↔ ∃ pc, b = .stop pc := by
  cases b <;> simp [Body.role]

/-- A task that has a role has not ended. -/
theorem World.alive_of_role {r : Role} (h : (w.body τ).role = r) (hr : r ≠ .done) :
    w.alive τ = true := by
  rw [World.alive_iff]
  intro hb
  rw [hb] at h
  exact hr h.symm

/-- A property of the roles of all tasks can be checked on the tasks that there are. -/
theorem World.role_ne_of_lt {r : Role} (hr : r ≠ .done)
    (h : ∀ τ < w.tasks.length, (w.body τ).role ≠ r) (τ : ℕ) : (w.body τ).role ≠ r := by
  by_cases hlt : τ < w.tasks.length
  · exact h τ hlt
  · intro hrole
    exact hlt (World.lt_of_body_ne (World.alive_iff.mp (World.alive_of_role hrole hr)))

/-- A connection that is open has an open socket under it, as `is_open` asks for both. -/
theorem World.socketOpen_of_isOpen (h : w.isOpen c = true) : w.socketOpen c = true := by
  unfold World.isOpen at h
  cases hconn : w.conns[c]? with
  | none => simp [hconn] at h
  | some conn =>
    simp only [hconn, Option.map_some, Option.getD_some, Connection.isOpen, Bool.and_eq_true,
      Bool.or_eq_true, decide_eq_true_eq] at h
    exact World.socketOpen_iff.mpr ⟨conn, hconn, Sock.isOpen_iff.mpr h.2⟩

/-- Without an open socket nothing is sent, as `send()` asks `is_open` first. -/
theorem World.sendConn_eq_none (h : ∀ c, w.socketOpen c = false) : w.sendConn = none := by
  by_contra hne
  obtain ⟨c, hsend⟩ := Option.ne_none_iff_exists'.mp hne
  obtain ⟨-, hopen⟩ := Option.filter_eq_some_iff.mp hsend
  have hclosed := h c
  rw [World.socketOpen_of_isOpen hopen] at hclosed
  cases hclosed

/-- An update of a connection that opens no socket. -/
theorem World.socketOpen_of_modifyConn {f : Connection → Connection} {c' : ℕ}
    (hf : ∀ conn, (f conn).sock.isOpen = true → conn.sock.isOpen = true)
    (h : (w.modifyConn c f).socketOpen c' = true) : w.socketOpen c' = true := by
  obtain ⟨conn', hconn', hopen⟩ := World.socketOpen_iff.mp h
  rcases World.conn_modifyConn_cases hconn' with ⟨-, hold⟩ | ⟨rfl, conn, hold, rfl⟩
  · exact World.socketOpen_iff.mpr ⟨conn', hold, hopen⟩
  · exact World.socketOpen_iff.mpr ⟨conn, hold, hf conn hopen⟩

/-- Beginning to close opens no socket. -/
theorem Connection.isOpen_beginClose {conn : Connection}
    (h : conn.beginClose.sock.isOpen = true) : conn.sock.isOpen = true := by
  unfold Connection.beginClose at h
  split at h
  · rename_i hlive
    rw [hlive]
    rfl
  · exact h

/-- After `close()` the socket is closed, whatever it was before. -/
theorem Connection.isOpen_endClose (conn : Connection) : conn.endClose.sock.isOpen = false := by
  unfold Connection.endClose
  split
  · rfl
  · rename_i hclosed
    by_contra hopen
    exact hclosed (Sock.isOpen_iff.mp (by simpa [Connection.detach] using hopen))

/-- When no future is registered, no call waits for a pending one. -/
theorem Rpc.PingHeld.not_waits {d : Dialect} {r : Rpc} (hheld : r.PingHeld) (hinv : r.Inv d)
    (hempty : r.pending.futures = ∅) (k : ℕ) : ¬r.Waits k := by
  intro hk
  obtain ⟨call, hcall, hended⟩ := hk.call
  have hslot : ∃ key, r.pending.futures.lookup key = some k := by
    cases hrequest : call.op.isRequest with
    | true => exact ⟨call.key, hinv.registered hcall hrequest hended hk.pending⟩
    | false =>
      have hping : call.op = .ping := by
        cases hop : call.op with
        | ping => rfl
        | _ => simp [hop, Operation.isRequest] at hrequest
      exact ⟨pongKey, hheld k ⟨⟨call, hcall, hping, hended⟩, hk.pending⟩⟩
  obtain ⟨key, hkey⟩ := hslot
  rw [hempty] at hkey
  simp at hkey

/-- After `cancel_all` no call waits for a pending future. -/
theorem Rpc.PingHeld.cancelAll {d : Dialect} {r : Rpc} (hheld : r.PingHeld) (hinv : r.Inv d)
    (k : ℕ) : ¬r.cancelAll.Waits k := by
  have hheld' : r.cancelAll.PingHeld := by
    apply hheld.move hinv .cancelAll
    intro call hcalls
    have hlength := congrArg List.length hcalls
    simp [Rpc.cancelAll] at hlength
  exact hheld'.not_waits hinv.cancelAll rfl k

namespace OneSession

/-- Tasks go on in their roles or end, and at most one of them is a `stop()`. -/
theorem of_roles (h : OneSession w)
    (hrole : ∀ {τ : ℕ} {r : Role}, (w'.body τ).role = r → r ≠ .done → r ≠ .stop →
      (w.body τ).role = r)
    (hstop : ∀ τ τ', (w'.body τ).role = .stop → (w'.body τ').role = .stop → τ = τ')
    (hsupervise : w'.superviseTask = w.superviseTask)
    (hheartbeat : w'.heartbeatTask = w.heartbeatTask) : OneSession w' where
  leader τ τ' hτ hτ' := by
    have leads {τ : ℕ} (hleads : (w'.body τ).leads = true) : (w.body τ).leads = true := by
      rw [Body.leads_iff] at hleads ⊢
      exact hleads.imp (fun h => hrole h (by decide) (by decide))
        (fun h => hrole h (by decide) (by decide))
    exact h.leader τ τ' (leads hτ) (leads hτ')
  stop := hstop
  supervise σ hσ := hsupervise.trans (h.supervise σ (hrole hσ (by decide) (by decide)))
  heartbeat η hη := hheartbeat.trans (h.heartbeat η (hrole hη (by decide) (by decide)))
  start τ η hτ hη :=
    h.start τ η (hrole hτ (by decide) (by decide)) (hrole hη (by decide) (by decide))

end OneSession

/-! ## The way of a `stop()` -/

/-- A `stop()` has a client to wind up. -/
structure Ending (w : World) (τ : ℕ) : Prop where
  stopped : w.running = false
  session : OneSession w
  holds : Holds w
  lt : τ < w.tasks.length
  alone : ∀ τ', (w.body τ').role = .stop → τ' = τ

namespace Ending

/-- An update that leaves the tasks alone and opens no socket. -/
theorem congr (h : Ending w τ) (hrun : w'.running = w.running) (hconn : w'.conn = w.conn)
    (hbody : ∀ τ, w'.body τ = w.body τ) (hlength : w'.tasks.length = w.tasks.length)
    (hopen : ∀ c, w'.socketOpen c = true → w.socketOpen c = true)
    (hsupervise : w'.superviseTask = w.superviseTask)
    (hheartbeat : w'.heartbeatTask = w.heartbeatTask) : Ending w' τ where
  stopped := hrun.trans h.stopped
  session := by
    refine h.session.of_roles ?_ ?_ hsupervise hheartbeat
    · intro τ r hr _ _
      rwa [hbody] at hr
    · intro τ τ' hτ hτ'
      rw [hbody] at hτ hτ'
      exact h.session.stop τ τ' hτ hτ'
  holds := ⟨fun c hc => hconn ▸ h.holds.held c (hopen c hc),
    fun τ c hc => hconn ▸ h.holds.works τ c (hbody τ ▸ hc)⟩
  lt := hlength ▸ h.lt
  alone τ' hτ' := h.alone τ' (hbody τ' ▸ hτ')

/-- The `stop()` closes or drops a connection, and opens none. -/
theorem modifyConn (h : Ending w τ) {f : Connection → Connection}
    (hf : ∀ conn, (f conn).sock.isOpen = true → conn.sock.isOpen = true) :
    Ending (w.modifyConn c f) τ :=
  h.congr rfl rfl (fun _ => rfl) rfl (fun _ => World.socketOpen_of_modifyConn hf) rfl rfl

/-- The `stop()` cancels a task, which leaves every task where it is. -/
theorem requestCancel (h : Ending w τ) : Ending (w.requestCancel σ) τ :=
  h.congr rfl rfl (World.body_requestCancel w σ) (by simp) (fun _ hc => hc) rfl rfl

section SetBody

variable {b : Body}

/-- The tasks beside the `stop()` keep their roles. -/
theorem role_of_setBody (h : Ending w τ) (hb : b.role = .stop ∨ b.role = .done) {τ' : ℕ} {r : Role}
    (hr : ((w.setBody τ b).body τ').role = r) (hdone : r ≠ .done) (hstop : r ≠ .stop) :
    (w.body τ').role = r := by
  by_cases hτ : τ' = τ
  · subst hτ
    rw [World.body_setBody_self _ h.lt] at hr
    rcases hb with hb | hb
    · exact absurd (hr.symm.trans hb) hstop
    · exact absurd (hr.symm.trans hb) hdone
  · rwa [World.body_setBody_of_ne _ hτ] at hr

/-- No task but the `stop()` is one, also after the `stop()` has gone on. -/
theorem stop_of_setBody (h : Ending w τ) {τ' : ℕ}
    (hr : ((w.setBody τ b).body τ').role = .stop) : τ' = τ := by
  by_contra hτ
  rw [World.body_setBody_of_ne _ hτ] at hr
  exact hτ (h.alone τ' hr)

/-- The tasks still belong to one session when a `stop()` goes on or ends. -/
theorem session_setBody (h : Ending w τ) (hb : b.role = .stop ∨ b.role = .done) :
    OneSession (w.setBody τ b) := by
  refine h.session.of_roles (h.role_of_setBody hb) ?_ rfl rfl
  intro τ₁ τ₂ hτ₁ hτ₂
  exact (h.stop_of_setBody hτ₁).trans (h.stop_of_setBody hτ₂).symm

/-- And the sockets are held as they were. -/
theorem holds_setBody (h : Ending w τ) (hb : b.role = .stop ∨ b.role = .done) :
    Holds (w.setBody τ b) where
  held := h.holds.held
  works τ' c hc := by
    by_cases hτ : τ' = τ
    · subst hτ
      rw [World.body_setBody_self _ h.lt] at hc
      have hleads := Body.leads_iff.mp (Body.leads_of_worksOn hc)
      rcases hb with hb | hb <;> simp [hb] at hleads
    · rw [World.body_setBody_of_ne _ hτ] at hc
      exact h.holds.works τ' c hc

end SetBody

/-- The `stop()` is suspended, with a task or a close to await. -/
theorem suspend (h : Ending w τ) {pc : StopAt} (hsees : pc.Sees w) :
    Winds (w.setBody τ (.stop pc)) ∧ WindsUp (w.setBody τ (.stop pc)) := by
  have hself : (w.setBody τ (.stop pc)).body τ = .stop pc := World.body_setBody_self _ h.lt
  have hrole {τ' : ℕ} {r : Role} (hr : ((w.setBody τ (.stop pc)).body τ').role = r)
      (hdone : r ≠ .done) (hstop : r ≠ .stop) : (w.body τ').role = r :=
    h.role_of_setBody (.inl rfl) hr hdone hstop
  refine ⟨⟨h.session_setBody (.inl rfl), ?_, ?_⟩, h.stopped, .inl ⟨τ, by rw [hself]; rfl⟩⟩
  · intro τ' pc' hb
    obtain rfl := h.stop_of_setBody (by rw [hb]; rfl)
    obtain rfl := Body.stop.inj (hself.symm.trans hb)
    refine ⟨h.stopped, h.holds_setBody (.inl rfl), ?_⟩
    cases pc with
    | awaitingSupervise σ heartbeat => exact hsees
    | awaitingHeartbeat η =>
      exact ⟨fun τ hτ => hsees.1 τ (hrole hτ (by decide) (by decide)), hsees.2⟩
    | closing c =>
      exact ⟨fun τ hτ => hsees.1 τ (hrole hτ (by decide) (by decide)),
        fun τ hτ => hsees.2.1 τ (hrole hτ (by decide) (by decide)), hsees.2.2⟩
  · intro _ hnone
    exact absurd (by rw [hself]; rfl) (hnone τ)

variable {d : Dialect}

/-- The `stop()` returns, and nothing of the client goes on. -/
theorem finish (h : Ending w τ) (hinv : w.rpc.Inv d) (hheld : w.rpc.PingHeld)
    (hclosed : ∀ c, w.socketOpen c = false) (hsupervise : ∀ τ, (w.body τ).role ≠ .supervise)
    (hheartbeat : ∀ τ, (w.body τ).role ≠ .heartbeat) :
    Winds (w.stopFinish τ) ∧ WindsUp (w.stopFinish τ) := by
  have hbody (τ' : ℕ) : (w.stopFinish τ).body τ' = (w.finish τ).body τ' := rfl
  have hrole {τ' : ℕ} {r : Role} (hr : ((w.stopFinish τ).body τ').role = r)
      (hdone : r ≠ .done) (hstop : r ≠ .stop) : (w.body τ').role = r :=
    h.role_of_setBody (.inr rfl) hr hdone hstop
  have hnone (τ' : ℕ) : ((w.stopFinish τ).body τ').role ≠ .stop := by
    intro hr
    have hτ := h.stop_of_setBody hr
    rw [hτ, hbody, World.body_setBody_self _ h.lt] at hr
    cases hr
  refine ⟨⟨?_, ?_, ?_⟩, h.stopped, .inr ?_⟩
  · exact h.session.of_roles hrole (fun τ' _ hτ' => absurd hτ' (hnone τ')) rfl rfl
  · intro τ' pc hb
    exact absurd (by rw [hb]; rfl) (hnone τ')
  · intro _ _
    exact ⟨hclosed, fun τ' hτ' => hsupervise τ' (hrole hτ' (by decide) (by decide)),
      hheld.cancelAll hinv⟩
  · exact fun τ' hτ' => hheartbeat τ' (hrole hτ' (by decide) (by decide))

/-- The `stop()` goes on to the connection, when the tasks are over. -/
theorem close (h : Ending w τ) (hattached : Attached w) (hinv : w.rpc.Inv d)
    (hheld : w.rpc.PingHeld) (hsupervise : ∀ τ, (w.body τ).role ≠ .supervise)
    (hheartbeat : ∀ τ, (w.body τ).role ≠ .heartbeat) :
    Winds (w.stopClose τ) ∧ WindsUp (w.stopClose τ) := by
  unfold World.stopClose
  split
  · rename_i hconn
    refine h.finish hinv hheld ?_ hsupervise hheartbeat
    intro c
    by_contra hopen
    rw [h.holds.held c (by simpa using hopen)] at hconn
    cases hconn
  · rename_i c hconn
    split
    · have h' : Ending (w.modifyConn c Connection.beginClose) τ :=
        h.modifyConn (fun _ => Connection.isOpen_beginClose)
      exact h'.suspend ⟨hsupervise, hheartbeat, hconn⟩
    · rename_i hopen
      have h' : Ending (w.modifyConn c Connection.detach) τ := h.modifyConn (fun _ hc => hc)
      refine h'.finish hinv hheld ?_ hsupervise hheartbeat
      intro c'
      by_contra hopen'
      have hold : w.socketOpen c' = true :=
        World.socketOpen_of_modifyConn (f := Connection.detach) (fun _ hc => hc)
          (by simpa using hopen')
      have hc := h.holds.held c' hold
      rw [hconn] at hc
      obtain rfl := Option.some.inj hc
      exact hopen (hattached.isOpen hold)

/-- The `stop()` goes on to the heartbeat task. -/
theorem heartbeat (h : Ending w τ) (hattached : Attached w) (hinv : w.rpc.Inv d)
    (hheld : w.rpc.PingHeld) (hsupervise : ∀ τ, (w.body τ).role ≠ .supervise) :
    Winds (w.stopHeartbeat τ w.heartbeatTask) ∧ WindsUp (w.stopHeartbeat τ w.heartbeatTask) := by
  unfold World.stopHeartbeat
  split
  · rename_i hnone
    apply h.close hattached hinv hheld hsupervise
    intro η hη
    have htask := h.session.heartbeat η hη
    have halive := World.alive_of_role hη (by decide)
    simp [htask, Option.filter, halive] at hnone
  · rename_i η hη
    obtain ⟨htask, -⟩ := Option.filter_eq_some_iff.mp hη
    refine h.requestCancel.suspend ⟨?_, htask⟩
    intro τ'
    rw [World.body_requestCancel]
    exact hsupervise τ'

end Ending

/-- A `stop()` of a client that runs takes over what there is to wind up. -/
theorem Winds.beginStop (h : Winds w) (hsound : Sound cfg w) (hsole : Sole w)
    (hheld : w.rpc.PingHeld) : Winds w.beginStop ∧ WindsUp w.beginStop := by
  unfold World.beginStop
  simp only
  set w₁ : World := World.spawn { w with running := false, shutdown := true } .finished
  have hself : w₁.body w.tasks.length = .finished := World.body_spawn_self _ _
  have hbody (τ : ℕ) : (w₁.body τ).role = .done ∨ w₁.body τ = w.body τ := by
    rcases World.body_spawn_cases (w := { w with running := false, shutdown := true })
      (b := .finished) τ with ⟨-, hb⟩ | hb
    · exact .inl (by rw [hb]; rfl)
    · exact .inr hb
  have hrole {τ : ℕ} {r : Role} (hr : (w₁.body τ).role = r) (hdone : r ≠ .done) :
      (w.body τ).role = r := by
    rcases hbody τ with hb | hb
    · exact absurd (hr.symm.trans hb) hdone
    · rwa [hb] at hr
  have hnone (τ : ℕ) : (w₁.body τ).role ≠ .stop := fun hτ =>
    (hsole.tidy τ).runs (hrole hτ (by decide))
  have hending : Ending w₁ w.tasks.length :=
    { stopped := rfl
      session := h.session.of_roles (fun hr hdone _ => hrole hr hdone)
        (fun τ _ hτ => absurd hτ (hnone τ)) rfl rfl
      holds := by
        refine ⟨hsole.held, ?_⟩
        intro τ c hc
        rcases hbody τ with hb | hb
        · rw [Body.role_eq_done.mp hb] at hc
          cases hc
        · exact (hsole.tidy τ).works c (hb ▸ hc)
      lt := by simp [w₁]
      alone := fun τ hτ => absurd hτ (hnone τ) }
  have hattached : Attached w₁ := hsound.attached
  split
  · rename_i hfilter
    apply hending.heartbeat hattached hsound.rpc hheld
    intro σ hσ
    have htask : w₁.superviseTask = some σ := hending.session.supervise σ hσ
    have halive := World.alive_of_role hσ (by decide)
    simp [htask, Option.filter, halive] at hfilter
  · rename_i σ hσ
    obtain ⟨htask, -⟩ := Option.filter_eq_some_iff.mp hσ
    exact hending.requestCancel.suspend ⟨htask, rfl⟩

/-- A `stop()` under way has a client to wind up. -/
theorem Winds.ending (h : Winds w) {pc : StopAt} (hb : w.body τ = .stop pc) : Ending w τ where
  stopped := (h.stopping τ pc hb).1
  session := h.session
  holds := (h.stopping τ pc hb).2.1
  lt := World.lt_of_body_ne (by simp [hb])
  alone τ' hτ' := h.session.stop τ' τ hτ' (by rw [hb]; rfl)

/-- A step of a `stop()` has awaited one of the tasks or the close. -/
theorem Winds.stopStep (h : Winds w) (hsound : Sound cfg w) (hheld : w.rpc.PingHeld)
    {pc : StopAt} (hb : w.body τ = .stop pc) (htask : e.task = some τ)
    (hstep : step cfg w e = some w') : Winds w' ∧ WindsUp w' := by
  have hending := h.ending hb
  obtain ⟨-, -, hsees⟩ := h.stopping τ pc hb
  have hopening : w.opening? τ = none := by simp [World.opening?, hb]
  cases e <;> cases htask
  case connected | connectFailed | authSent | authSendFailed | authReply | authTimeout
      | authClosed => simp [step, World.openStep, hopening] at hstep
  case stopStep =>
    simp only [step, World.stopStep, hb] at hstep
    cases pc with
    | awaitingSupervise σ heartbeat =>
      simp only at hstep
      split at hstep
      · cases hstep
      · rename_i hended
        cases hstep
        obtain ⟨hσ, rfl⟩ := hsees
        apply hending.heartbeat hsound.attached hsound.rpc hheld
        intro σ' hσ'
        obtain rfl := Option.some.inj (hσ.symm.trans (h.session.supervise σ' hσ'))
        exact hended (World.alive_of_role hσ' (by decide))
    | awaitingHeartbeat η =>
      simp only at hstep
      split at hstep
      · cases hstep
      · rename_i hended
        cases hstep
        apply hending.close hsound.attached hsound.rpc hheld hsees.1
        intro η' hη'
        obtain rfl := Option.some.inj (hsees.2.symm.trans (h.session.heartbeat η' hη'))
        exact hended (World.alive_of_role hη' (by decide))
    | closing c => cases hstep
  case closeDone =>
    simp only [step, World.closeDoneStep, hb] at hstep
    split at hstep
    · cases hstep
    · cases pc with
      | closing c =>
        cases hstep
        have hshrinks (conn : Connection) (hopen : conn.endClose.sock.isOpen = true) :
            conn.sock.isOpen = true := by
          rw [Connection.isOpen_endClose] at hopen
          cases hopen
        have hending' : Ending (w.modifyConn c Connection.endClose) τ := hending.modifyConn hshrinks
        refine hending'.finish hsound.rpc hheld ?_ hsees.1 hsees.2.1
        intro c'
        by_contra hopen
        have hopen' : (w.modifyConn c Connection.endClose).socketOpen c' = true := by
          simpa using hopen
        have hc := hending'.holds.held c' hopen'
        rw [World.modifyConn_conn, hsees.2.2] at hc
        obtain rfl := Option.some.inj hc
        obtain ⟨conn', hconn', hsock⟩ := World.socketOpen_iff.mp hopen'
        rw [World.getElem?_modifyConn_self] at hconn'
        obtain ⟨conn, -, rfl⟩ := Option.map_eq_some_iff.mp hconn'
        rw [Connection.isOpen_endClose] at hsock
        cases hsock
      | _ => cases hstep
  all_goals
    simp [step, World.runStep, World.recvStep, World.socketEndStep, World.callbackCallStep,
      World.callbackEndStep, World.wakeStep, World.cancelStep, hb] at hstep

end ProxyClient.Websocket
