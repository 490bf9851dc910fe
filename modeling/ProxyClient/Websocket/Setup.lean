import ProxyClient.Websocket.Reachable

/-!
# What has been set up on a connection that is pumped

A supervise task takes its connection through the handshake and the replay before it pumps
frames from it. The invariant says how far that has got at every suspension point. It fails
where `_reconnect_once` swallows the failure of a handshake whose socket stays open, where
`start()` finds a registry that it never replays, and where a `start()` overlaps the session
before it.
-/

namespace ProxyClient.Websocket

variable {cfg : Config} {w₀ w w' : World} {e : Event} {τ c : ℕ}

/-! ## Sessions -/

/-- The connection on which a supervise task reconnects. -/
def Body.reconnects : Body → Option ℕ
  | .supervise _ (.opening c _) => some c
  | _ => none

/-- The connection that a `start()` opens, while it does. -/
def Body.starts : Body → Option ℕ
  | .start c _ => some c
  | _ => none

/-- A `start()` or a supervise task, which leads a session. -/
def Body.leads : Body → Bool
  | .start _ _ | .supervise _ _ => true
  | _ => false

/-- A step that does not break the setup of a connection. -/
structure Orderly (w : World) (e : Event) : Prop where
  /-- When the handshake of a reconnect fails, its socket is not open. -/
  failed : ∀ σ ∈ e.task, ∀ c ∈ (w.body σ).reconnects, OpenRaises w σ c e → w.sock c ≠ .live
  /-- When the handshake of a `start()` is accepted, there is nothing to replay. -/
  fresh : ∀ τ ∈ e.task, ∀ c ∈ (w.body τ).starts, OpenReturns w τ c e → w.subscriptions = []
  /-- A `start()` begins after the `start()` and the supervise task before it ended. -/
  alone : e = .start → w.running = false → ∀ τ < w.tasks.length, (w.body τ).leads = false

instance (w : World) (τ c : ℕ) (e : Event) : Decidable (OpenRaises w τ c e) :=
  match e with
  | .connectFailed τ' => decidable_of_iff (τ' = τ) ⟨fun h => h ▸ .connect, fun h => by cases h; rfl⟩
  | .authSendFailed τ' => decidable_of_iff (τ' = τ) ⟨fun h => h ▸ .send, fun h => by cases h; rfl⟩
  | .authTimeout τ' => decidable_of_iff (τ' = τ) ⟨fun h => h ▸ .timeout, fun h => by cases h; rfl⟩
  | .authClosed τ' => decidable_of_iff (τ' = τ) ⟨fun h => h ▸ .closed, fun h => by cases h; rfl⟩
  | .authSent τ' =>
    decidable_of_iff (τ' = τ ∧ w.readByOther τ c = true)
      ⟨fun ⟨hτ, h⟩ => by subst hτ; exact .concurrent h,
        fun h => by cases h with | concurrent h => exact ⟨rfl, h⟩⟩
  | .authReply τ' =>
    match h : w.handshake? c with
    | some (.error exc) =>
      decidable_of_iff (τ' = τ) ⟨fun hτ => hτ ▸ .refused h, fun h => by cases h; rfl⟩
    | some (.ok _) => isFalse fun hraises => by
      cases hraises with
      | refused h' => rw [h] at h'; cases h'
    | none => isFalse fun hraises => by
      cases hraises with
      | refused h' => rw [h] at h'; cases h'
  | .tick _ | .frame _ _ | .sockClosing _ | .sockClosed _ _ | .connected _ | .start
  | .cancelStart _ | .stop | .call _ | .send _ | .addHandler _ _ | .removeHandler _ _
  | .clearHandlers _ | .sent _ | .sendFailed _ | .resume _ | .timeout _ | .cancel _ | .run _
  | .recv _ | .socketEnd _ | .callbackCall _ _ | .callbackEnd _ _ | .wake _ | .closeDone _
  | .stopStep _ | .deliverCancel _ => isFalse nofun

instance (c : ℕ) (o : Option (ℕ × OpenStage)) :
    Decidable (∃ deadline, o = some (c, .awaitingReply deadline)) :=
  match o with
  | some (c', .awaitingReply deadline) =>
    decidable_of_iff (c' = c) ⟨fun h => ⟨deadline, h ▸ rfl⟩, fun ⟨_, h⟩ => by cases h; rfl⟩
  | some (_, .connecting) | some (_, .sendingAuth) | none => isFalse nofun

instance (w : World) (τ c : ℕ) (e : Event) : Decidable (OpenReturns w τ c e) :=
  decidable_of_iff (e = .authReply τ ∧
      (∃ deadline, w.opening? τ = some (c, .awaitingReply deadline)) ∧
      w.handshake? c = some (.ok ()))
    ⟨fun ⟨he, hstage, hreply⟩ => ⟨he, hstage, hreply⟩, fun h => ⟨h.event, h.stage, h.reply⟩⟩

instance (w : World) (e : Event) : Decidable (Orderly w e) :=
  decidable_of_iff
    ((∀ σ ∈ e.task, ∀ c ∈ (w.body σ).reconnects, OpenRaises w σ c e → w.sock c ≠ .live) ∧
      (∀ τ ∈ e.task, ∀ c ∈ (w.body τ).starts, OpenReturns w τ c e → w.subscriptions = []) ∧
      (e = .start → w.running = false → ∀ τ < w.tasks.length, (w.body τ).leads = false))
    ⟨fun ⟨hfailed, hfresh, halone⟩ => ⟨hfailed, hfresh, halone⟩,
      fun h => ⟨h.failed, h.fresh, h.alone⟩⟩

/-- The `subscribe()` of a registry entry was sent on a connection. -/
def EntrySent (cfg : Config) (conn : Connection) (entry : Entry) : Prop :=
  ∃ k n frame key, Sent.call k frame ∈ conn.sent ∧
    (Operation.subscribe entry.1 (some entry.2) false).requestFrame cfg.dialect n =
      .ok (frame, key)

/-- The Proxy accepted the handshake on a connection, and every entry of the registry at that
time was sent on it, but for the entries still to be replayed. -/
structure Connection.SetUp (cfg : Config) (conn : Connection) (rest : List Entry) : Prop where
  accepted : conn.connectedAt.isSome = true
  replayed : ∀ entry ∈ conn.registryAtOpen, entry ∈ rest ∨ EntrySent cfg conn entry

/-- A connection is set up, if it is open. -/
def World.SetUp (cfg : Config) (w : World) (c : ℕ) (rest : List Entry) : Prop :=
  ∀ conn, w.conns[c]? = some conn → conn.sock = .live → conn.SetUp cfg rest

/-- What is set up when the coroutine of a task is at its suspension point. -/
def Body.Stands (cfg : Config) (w : World) : Body → Prop
  | .start c _ | .supervise _ (.opening c _) => ∀ c', w.conn = some c' → c' = c
  | .supervise _ .ready => ∀ c, w.conn = some c → w.SetUp cfg c []
  | .supervise _ (.replaying _ rest) | .supervise _ (.replayGap _ rest) =>
    ∀ c, w.conn = some c → w.SetUp cfg c rest
  | .supervise _ (.reading c) | .supervise _ (.inCallback c _ _)
  | .supervise _ (.inCallbackCall c _ _ _) => w.SetUp cfg c []
  | _ => True

/-- The invariant: one session at a time, and it is set up as far as it has got. -/
structure Session (cfg : Config) (w : World) : Prop where
  single : ∀ τ τ', (w.body τ).leads = true → (w.body τ').leads = true → τ = τ'
  stands : ∀ τ, (w.body τ).Stands cfg w

/-- Whatever was set up on an open connection stays set up while it is open. -/
def World.Keeps (w w' : World) : Prop :=
  ∀ (c : ℕ) (conn' : Connection), w'.conns[c]? = some conn' → conn'.sock = .live →
    ∃ conn : Connection, w.conns[c]? = some conn ∧ conn.sock = .live ∧
      conn'.connectedAt = conn.connectedAt ∧ conn'.registryAtOpen = conn.registryAtOpen ∧
      conn.sent ⊆ conn'.sent

/-- A task that leads a session is one of the tasks that were created. -/
theorem World.lt_of_leads (h : (w.body τ).leads = true) : τ < w.tasks.length := by
  apply World.lt_of_body_ne
  intro hfinished
  rw [hfinished] at h
  cases h

/-- Nothing is said of the tasks beside the leader of the session. -/
theorem Body.stands_of_not_leads {b : Body} (h : b.leads = false) : b.Stands cfg w := by
  cases b with
  | start | supervise => cases h
  | _ => trivial

/-- A pumped connection is set up completely. -/
theorem Body.Stands.of_pumps {b : Body} (h : b.Stands cfg w) (hpumps : b.pumps = some c) :
    w.SetUp cfg c [] := by
  unfold Body.pumps at hpumps
  split at hpumps
  · exact Option.some.inj hpumps ▸ h
  · exact Option.some.inj hpumps ▸ h
  · exact Option.some.inj hpumps ▸ h
  · cases hpumps

/-! ## Connections -/

/-- Where the connections are the same, their setup is. -/
theorem World.Keeps.of_conns (h : w'.conns = w.conns) : w.Keeps w' := by
  intro c conn' hconn hlive
  exact ⟨conn', h ▸ hconn, hlive, rfl, rfl, fun _ h => h⟩

/-- An update of a connection that opens no socket and accepts no handshake. -/
theorem World.Keeps.modifyConn {f : Connection → Connection}
    (hf : ∀ conn, (f conn).sock = .live → conn.sock = .live ∧
      (f conn).connectedAt = conn.connectedAt ∧ (f conn).registryAtOpen = conn.registryAtOpen ∧
      conn.sent ⊆ (f conn).sent) : w.Keeps (w.modifyConn c f) := by
  intro c' conn' hconn' hlive
  rcases World.conn_modifyConn_cases hconn' with ⟨-, hold⟩ | ⟨rfl, conn, hconn, rfl⟩
  · exact ⟨conn', hold, hlive, rfl, rfl, fun _ h => h⟩
  · exact ⟨conn, hconn, hf conn hlive⟩

/-- Writing a frame changes only what was sent. -/
theorem World.Keeps.write (frame : Sent) : w.Keeps (w.modifyConn c (·.write frame)) := by
  refine .modifyConn ?_
  intro conn hlive
  rw [Connection.sock_write] at hlive
  refine ⟨hlive, ?_⟩
  simp only [Connection.write, hlive, if_true]
  exact ⟨trivial, trivial, fun _ h => List.mem_append_left _ h⟩

/-- What was accepted and replayed on a connection stays so when more is sent on it. -/
theorem Connection.SetUp.mono {conn conn' : Connection} {rest : List Entry}
    (h : conn.SetUp cfg rest) (hat : conn'.connectedAt = conn.connectedAt)
    (hopen : conn'.registryAtOpen = conn.registryAtOpen) (hsent : conn.sent ⊆ conn'.sent) :
    conn'.SetUp cfg rest where
  accepted := by rw [hat, h.accepted]
  replayed entry hentry := by
    rw [hopen] at hentry
    rcases h.replayed entry hentry with hrest | ⟨k, n, frame, key, hmem, hframe⟩
    · exact .inl hrest
    · exact .inr ⟨k, n, frame, key, hsent hmem, hframe⟩

/-- So a connection that is set up stays set up. -/
theorem World.SetUp.keeps {rest : List Entry} (h : w.SetUp cfg c rest) (hkeeps : w.Keeps w') :
    w'.SetUp cfg c rest := by
  intro conn' hconn' hlive'
  obtain ⟨conn, hconn, hlive, hat, hopen, hsent⟩ := hkeeps c conn' hconn' hlive'
  exact (h conn hconn hlive).mono hat hopen hsent

/-- A suspension point stays as it is when connections keep their setup and `_conn` is at most
dropped. -/
theorem Body.Stands.keeps {b : Body} (h : b.Stands cfg w) (hkeeps : w.Keeps w')
    (hconn : w'.conn = w.conn ∨ w'.conn = none) : b.Stands cfg w' := by
  have hback {c : ℕ} (hc : w'.conn = some c) : w.conn = some c := by
    rcases hconn with hsame | hnone
    · rw [← hsame, hc]
    · rw [hnone] at hc
      cases hc
  cases b with
  | start c stage => exact fun c' hc' => h c' (hback hc')
  | supervise a pc =>
    cases pc with
    | ready => exact fun c hc => (h c (hback hc)).keeps hkeeps
    | reading c => exact World.SetUp.keeps h hkeeps
    | inCallback c f cb => exact World.SetUp.keeps h hkeeps
    | inCallbackCall c f cb k => exact World.SetUp.keeps h hkeeps
    | backingOff wake => trivial
    | opening c stage => exact fun c' hc' => h c' (hback hc')
    | replaying k rest => exact fun c hc => (h c (hback hc)).keeps hkeeps
    | replayGap wake rest => exact fun c hc => (h c (hback hc)).keeps hkeeps
  | _ => trivial

/-- A task is inside `open()` on a connection. -/
def World.Opening (w : World) (τ c : ℕ) : Prop :=
  (∃ attempt stage, w.body τ = .supervise attempt (.opening c stage)) ∨
    ∃ stage, w.body τ = .start c stage

/-- A task at a stage of `open()` is inside `open()`. -/
theorem World.opening_of_opening? {stage : OpenStage} (h : w.opening? τ = some (c, stage)) :
    w.Opening τ c := by
  unfold World.opening? at h
  split at h
  · rename_i hb
    obtain ⟨rfl, rfl⟩ := Prod.mk.inj (Option.some.inj h)
    exact .inl ⟨_, _, hb⟩
  · rename_i hb
    obtain ⟨rfl, rfl⟩ := Prod.mk.inj (Option.some.inj h)
    exact .inr ⟨_, hb⟩
  · cases h

/-- Only `open()` connects a socket or has a handshake accepted. -/
theorem Alters.keeps {f : Connection → Connection} (h : Alters w₀ e w c f) :
    w.Keeps (w.modifyConn c f) ∨ ∃ τ, w.Opening τ c := by
  cases h with
  | arrive =>
    exact .inl (.modifyConn fun conn hlive => ⟨hlive, rfl, rfl, fun _ h => h⟩)
  | beginClose =>
    refine .inl (.modifyConn ?_)
    intro conn hlive
    unfold Connection.beginClose at hlive
    split at hlive
    · cases hlive
    · contradiction
  | endClose =>
    refine .inl (.modifyConn ?_)
    intro conn hlive
    unfold Connection.endClose at hlive
    split at hlive
    · cases hlive
    · rename_i hclosed
      exact absurd (.inl hlive) hclosed
  | detach =>
    exact .inl (.modifyConn fun conn hlive => ⟨hlive, rfl, rfl, fun _ h => h⟩)
  | close => exact .inl (.modifyConn nofun)
  | connect _ _ hopening => exact .inr ⟨_, World.opening_of_opening? hopening⟩
  | pop =>
    exact .inl (.modifyConn fun conn hlive => ⟨hlive, rfl, rfl, fun _ h => h⟩)
  | @accept τ hreturns hbody =>
    obtain ⟨deadline, hopening₀⟩ := hreturns.stage
    have hopening : w.opening? τ = some (c, .awaitingReply deadline) := by
      simpa [World.opening?, hbody] using hopening₀
    exact .inr ⟨τ, World.opening_of_opening? hopening⟩
  | resolve =>
    exact .inl (.modifyConn fun conn hlive => ⟨hlive, rfl, rfl, fun _ h => h⟩)
  | message => exact .inl (.write _)

/-! ## Moves -/

namespace Session

/-- Before the first `start()` there is no session. -/
theorem init : Session cfg World.init where
  single τ τ' h := by simp [World.init, World.body, Body.leads] at h
  stands τ := by simp [World.init, World.body, Body.Stands]

/-- A move that makes no task the leader of a session. -/
theorem update (h : Session cfg w)
    (hbody : ∀ τ, (w'.body τ).leads = true →
      (w.body τ).leads = true ∧ (w'.body τ).Stands cfg w') : Session cfg w' where
  single τ τ' hτ hτ' := h.single τ τ' (hbody τ hτ).1 (hbody τ' hτ').1
  stands τ := by
    by_cases hleads : (w'.body τ).leads = true
    · exact (hbody τ hleads).2
    · exact Body.stands_of_not_leads (by simpa using hleads)

/-- A move that changes no leader and keeps the setup of every connection. -/
theorem keeps (h : Session cfg w) (hkeeps : w.Keeps w')
    (hconn : w'.conn = w.conn ∨ w'.conn = none)
    (hbody : ∀ τ, w'.body τ = w.body τ ∨ (w'.body τ).leads = false) : Session cfg w' := by
  apply h.update
  intro τ hleads
  rcases hbody τ with hsame | hnot
  · rw [hsame] at hleads ⊢
    exact ⟨hleads, (h.stands τ).keeps hkeeps hconn⟩
  · rw [hnot] at hleads
    cases hleads

/-- A leader goes on, and what is set up at its new suspension point is what stands there. -/
theorem setBody (h : Session cfg w) {b : Body} (hkeeps : w.Keeps w') (hconn : w'.conn = w.conn)
    (hbody : ∀ τ', w'.body τ' = (w.setBody τ b).body τ')
    (hleads : b.leads = true → (w.body τ).leads = true) (hstands : b.Stands cfg w') :
    Session cfg w' := by
  apply h.update
  intro τ'
  rw [hbody]
  rcases World.body_setBody_cases (w := w) (τ := τ) (b := b) τ' with ⟨rfl, hb, -⟩ | hb
  · rw [hb]
    exact fun h => ⟨hleads h, hstands⟩
  · rw [hb]
    exact fun hl => ⟨hl, (h.stands τ').keeps hkeeps (.inl hconn)⟩

/-- A task inside `open()` is the only leader, so that nothing is set up yet. -/
theorem opening (h : Session cfg w) (hopening : w.Opening τ c) (hconn : w'.conn = w.conn)
    (hbody : ∀ τ', w'.body τ' = w.body τ') : Session cfg w' := by
  have hlead : (w.body τ).leads = true := by
    rcases hopening with ⟨a, stage, hb⟩ | ⟨stage, hb⟩ <;> rw [hb] <;> rfl
  apply h.update
  intro τ' hleads
  rw [hbody] at hleads ⊢
  refine ⟨hleads, ?_⟩
  obtain rfl := h.single τ' τ hleads hlead
  have hstands := h.stands τ'
  rcases hopening with ⟨a, stage, hb⟩ | ⟨stage, hb⟩
  · rw [hb] at hstands ⊢
    intro c' hc'
    exact hstands c' (hconn ▸ hc')
  · rw [hb] at hstands ⊢
    intro c' hc'
    exact hstands c' (hconn ▸ hc')

/-- A new task is the only leader, and it stands where its connection has got to. -/
theorem begin {b : Body} (hnone : ∀ τ, (w.body τ).leads = false)
    (hbody : ∀ τ, w'.body τ = (w.spawn b).body τ) (hstands : b.Stands cfg w') :
    Session cfg w' := by
  have hself {τ : ℕ} (hleads : (w'.body τ).leads = true) :
      τ = w.tasks.length ∧ w'.body τ = b := by
    rw [hbody] at hleads ⊢
    rcases World.body_spawn_cases (w := w) (b := b) τ with hnew | hold
    · exact hnew
    · rw [hold, hnone] at hleads
      cases hleads
  refine ⟨fun τ τ' hτ hτ' => (hself hτ).1.trans (hself hτ').1.symm, ?_⟩
  intro τ
  by_cases hleads : (w'.body τ).leads = true
  · rw [(hself hleads).2]
    exact hstands
  · exact Body.stands_of_not_leads (by simpa using hleads)

end Session

/-- What is still to be replayed when a supervise task sends the next entry. -/
theorem Replays.setUp {b : Body} {entry : Entry} {rest : List Entry}
    (h : Replays w b entry rest) (hstands : b.Stands cfg w) (hconn : w.conn = some c) :
    w.SetUp cfg c (entry :: rest) := by
  cases h with
  | first hfirst hat hopen =>
    obtain rfl := hstands c hconn
    intro conn hc _
    obtain rfl := Option.some.inj (hc.symm.trans hfirst)
    exact ⟨hat, fun entry hentry => .inl (hopen ▸ hentry)⟩
  | next => exact hstands c hconn

/-- A supervise task that enters the pump has set its connection up. -/
theorem Enters.setUp {σ : ℕ} {b : Body} (h : Enters w₀ e w σ b) (hok : Orderly w₀ e)
    (hstands : b.Stands cfg w) (hconn : w.conn = some c) : w.SetUp cfg c [] := by
  cases h with
  | ready => exact hstands c hconn
  | replayed => exact hstands c hconn
  | accepted hopened hat hopen =>
    obtain rfl := hstands c hconn
    intro conn hc _
    obtain rfl := Option.some.inj (hc.symm.trans hopened)
    refine ⟨hat, ?_⟩
    intro entry hentry
    rw [hopen] at hentry
    cases hentry
  | @refused a c' stage hraises hb hsock =>
    obtain rfl := hstands c hconn
    have htask : e.task = some σ := by cases hraises <;> rfl
    have hdead := hok.failed σ htask c (by rw [hb]; rfl) hraises
    intro conn hc hlive
    refine absurd ?_ hdead
    rw [← hsock]
    simp [World.sock, hc, hlive]

/-- Where a task may go without a call, given what is set up. -/
theorem Goes.stands {b b' : Body} (h : Goes cfg w₀ e w τ b b') (hok : Orderly w₀ e)
    (hattached : Attached w) (hstands : b.Stands cfg w) :
    b'.Stands cfg w ∧ (b'.leads = true → b.leads = true) := by
  cases h with
  | finish => exact ⟨trivial, by simp [Body.leads]⟩
  | reopen => exact ⟨hstands, fun _ => rfl⟩
  | start => exact ⟨hstands, fun _ => rfl⟩
  | backOff => exact ⟨trivial, fun _ => rfl⟩
  | enter henter _ hconn =>
    refine ⟨henter.setUp hok hstands hconn, fun _ => ?_⟩
    cases henter <;> rfl
  | read => exact ⟨hstands, fun _ => rfl⟩
  | handle => exact ⟨hstands, fun _ => rfl⟩
  | recancel => exact ⟨hstands, fun _ => rfl⟩
  | gap hreplays hsend =>
    refine ⟨?_, fun _ => (by cases hreplays <;> rfl)⟩
    intro c hconn conn hc hlive
    have hsocket : w.socketOpen c = true :=
      World.socketOpen_iff.mpr ⟨conn, hc, by rw [hlive]; rfl⟩
    have hopen := hattached.isOpen hsocket
    simp [World.sendConn, hconn, hopen] at hsend
  | sleep => exact ⟨trivial, by simp [Body.leads]⟩
  | rest => exact ⟨trivial, by simp [Body.leads]⟩
  | stop => exact ⟨trivial, by simp [Body.leads]⟩

/-- The next entry of a replay is sent. -/
theorem setUp_launched {call : Call} {channel : String} {params : Params} {rest : List Entry}
    (hframed : Framed cfg w call) (hop : call.op = .subscribe channel (some params) false)
    (h : w.SetUp cfg c ((channel, params) :: rest)) :
    (w.launched call c).SetUp cfg c rest := by
  intro conn hconn hlive
  obtain ⟨conn₀, hconn₀, rfl⟩ : ∃ conn₀, w.conns[c]? = some conn₀ ∧
      conn = conn₀.write (.call w.rpc.calls.length call.frame) := by
    rcases World.conn_modifyConn_cases hconn with ⟨hne, -⟩ | ⟨-, hsome⟩
    · exact absurd rfl hne
    · exact hsome
  rw [Connection.sock_write] at hlive
  have hsetUp := h conn₀ hconn₀ hlive
  have hwrite : conn₀.write (.call w.rpc.calls.length call.frame) =
      { conn₀ with sent := conn₀.sent ++ [.call w.rpc.calls.length call.frame] } := by
    simp [Connection.write, hlive]
  rw [hwrite]
  refine ⟨hsetUp.accepted, ?_⟩
  intro entry hentry
  have hframe := hframed.frame
  rw [hop] at hframe
  rcases hsetUp.replayed entry hentry with hmem | ⟨k, n, frame, key, hmem, hframe'⟩
  · rcases List.mem_cons.mp hmem with rfl | hrest
    · exact .inr ⟨_, _, _, _, List.mem_append_right _ (List.mem_singleton.mpr rfl), hframe⟩
    · exact .inl hrest
  · exact .inr ⟨k, n, frame, key, List.mem_append_left _ hmem, hframe'⟩

namespace Session

/-- What happens to a connection leaves the invariant as it is: either the setup of every open
connection is kept, or the only leader is still inside `open()`. -/
theorem alter (h : Session cfg w) {f : Connection → Connection} (halters : Alters w₀ e w c f) :
    Session cfg (w.modifyConn c f) := by
  rcases halters.keeps with hkeeps | ⟨τ, hopening⟩
  · exact h.keeps hkeeps (.inl rfl) (fun _ => .inl rfl)
  · exact h.opening hopening rfl (fun _ => rfl)

/-- A task that leads no session is created. -/
theorem spawn (h : Session cfg w) {b : Body} (hconns : w'.conns = w.conns)
    (hconn : w'.conn = w.conn) (hbody : ∀ τ, w'.body τ = (w.spawn b).body τ)
    (hleads : b.leads = false) : Session cfg w' := by
  refine h.keeps (.of_conns hconns) (.inl hconn) ?_
  intro τ
  rw [hbody]
  rcases World.body_spawn_cases (w := w) (b := b) τ with ⟨-, hb⟩ | hb
  · rw [hb]
    exact .inr hleads
  · exact .inl hb

/-- A `start()` of an orderly step finds no leader, and works on the connection that it makes. -/
theorem start (hok : Orderly w .start) (hrun : w.running = false) :
    Session cfg ({ w with running := true, shutdown := false, conn := some w.conns.length,
                          conns := w.conns ++ [({} : Connection)] }.spawn
      (.start w.conns.length .connecting)) := by
  have hnone (τ : ℕ) : (w.body τ).leads = false := by
    by_contra hleads
    have hlead : (w.body τ).leads = true := by simpa using hleads
    exact hleads (hok.alone rfl hrun τ (World.lt_of_leads hlead))
  refine .begin hnone (fun _ => rfl) ?_
  intro c' hc'
  exact (Option.some.inj hc').symm

/-- The supervise task begins to open another connection, on which nothing is set up. -/
theorem beginReconnect (h : Session cfg w) {σ a : ℕ} (hlead : (w.body σ).leads = true) :
    Session cfg (w.beginReconnect σ a) := by
  have hlt := World.lt_of_leads hlead
  apply h.update
  intro τ hleads
  by_cases hτ : τ = σ
  · subst hτ
    have hbody : (w.beginReconnect τ a).body τ =
      .supervise a (.opening w.conns.length .connecting) := World.body_setBody_self _ hlt
    rw [hbody]
    refine ⟨hlead, ?_⟩
    intro c' hc'
    exact (Option.some.inj hc').symm
  · have hbody : (w.beginReconnect σ a).body τ = w.body τ := World.body_setBody_of_ne _ hτ
    rw [hbody] at hleads
    exact absurd (h.single τ σ hleads hlead) hτ

/-- The `start()` whose handshake was accepted on a connection with nothing to replay hands the
session to the supervise task that it creates. -/
theorem supervise (h : Session cfg w) {stage : OpenStage} {conn : Connection} {task : Option ℕ}
    (hb : w.body τ = .start c stage) (hconn : w.conns[c]? = some conn)
    (hat : conn.connectedAt.isSome = true) (hopen : conn.registryAtOpen = []) :
    Session cfg ({ w.finish τ with superviseTask := task }.spawn (.supervise 0 .ready)) := by
  have hlead : (w.body τ).leads = true := by rw [hb]; rfl
  have hnone (τ' : ℕ) : ((w.finish τ).body τ').leads = false := by
    by_cases hτ : τ' = τ
    · rw [hτ, World.body_setBody_self _ (World.lt_of_leads hlead)]
      rfl
    · rw [World.body_setBody_of_ne _ hτ]
      by_contra hleads
      exact hτ (h.single τ' τ (by simpa using hleads) hlead)
  refine .begin hnone (fun _ => rfl) ?_
  intro c' hc'
  have hstands := h.stands τ
  rw [hb] at hstands
  obtain rfl := hstands c' hc'
  intro conn' hconn' _
  obtain rfl := Option.some.inj (Eq.trans (Eq.symm hconn') hconn)
  refine ⟨hat, ?_⟩
  intro entry hentry
  rw [hopen] at hentry
  cases hentry

/-- A task begins to await a call. The call of a replay sends the next entry on the connection
that is being set up. -/
theorem call (h : Session cfg w) {k : ℕ} {call : Call} {b : Body} (hframed : Framed cfg w call)
    (hconn : call.conn = some c) (hcalls : Calls w₀ w τ k call (w.body τ) b) :
    Session cfg ((w.launched call c).setBody τ b) := by
  have hkeeps : w.Keeps (w.launched call c) := .write _
  have hstands := h.stands τ
  generalize hb : w.body τ = b₀ at hcalls hstands
  cases hcalls with
  | callback =>
    exact h.setBody hkeeps rfl (fun _ => rfl) (fun _ => by rw [hb]; rfl)
      (World.SetUp.keeps hstands hkeeps)
  | replay _ hop hreplays =>
    have hleads : b₀.leads = true := by cases hreplays <;> rfl
    refine h.setBody hkeeps rfl (fun _ => rfl) (fun _ => hb ▸ hleads) ?_
    intro c' hc'
    have hsend : w.sendConn = some c := hframed.conn ▸ hconn
    obtain rfl : c' = c := by
      obtain ⟨hsome, -⟩ := Option.filter_eq_some_iff.mp hsend
      exact Option.some.inj (Eq.trans (Eq.symm hc') hsome)
    exact setUp_launched hframed hop (hreplays.setUp hstands hc')
  | heartbeat => exact h.setBody hkeeps rfl (fun _ => rfl) nofun trivial

/-- A task goes on after its call, and a replay with the entries that are left. -/
theorem resume (h : Session cfg w) {k : ℕ} {outcome : Outcome} {b : Body}
    (hresumes : Resumes τ k outcome (w.body τ) b) :
    Session cfg ((w.endCall cfg k outcome).setBody τ b) := by
  have hkeeps : w.Keeps (w.endCall cfg k outcome) := .of_conns (conns_endCall cfg w k outcome)
  have hconn : (w.endCall cfg k outcome).conn = w.conn := conn_endCall cfg w k outcome
  have hbody : ∀ τ', ((w.endCall cfg k outcome).setBody τ b).body τ' = (w.setBody τ b).body τ' :=
    congrFun (World.body_congr (by simp))
  have hstands := h.stands τ
  generalize hb : w.body τ = b₀ at hresumes hstands
  cases hresumes with
  | callback =>
    exact h.setBody hkeeps hconn hbody (fun _ => by rw [hb]; rfl)
      (World.SetUp.keeps hstands hkeeps)
  | replay =>
    refine h.setBody hkeeps hconn hbody (fun _ => by rw [hb]; rfl) ?_
    exact hstands.keeps hkeeps (.inl hconn)
  | _ => exact h.setBody hkeeps hconn hbody nofun trivial

end Session

/-- Every move of an orderly step keeps the invariant. -/
theorem Move.session (h : Move cfg w₀ e w w') (hok : Orderly w₀ e) (hattached : Attached w)
    (hsession : Session cfg w) : Session cfg w' := by
  cases h with
  | alter halters => exact hsession.alter halters
  | drop => exact hsession.keeps (.of_conns rfl) (.inr rfl) (fun _ => .inl rfl)
  | cancelTask τ =>
    exact hsession.keeps (.of_conns rfl) (.inl rfl) (fun τ' => .inl (w.body_requestCancel τ τ'))
  | launch => exact hsession.keeps (.write _) (.inl rfl) (fun _ => .inl rfl)
  | endCall =>
    exact hsession.keeps (.of_conns (conns_endCall cfg w _ _)) (.inl (conn_endCall cfg w _ _))
      (fun τ => .inl (body_endCall cfg w _ _ τ))
  | heartbeat => exact hsession.spawn rfl rfl (fun _ => rfl) rfl
  | stop => exact hsession.spawn rfl rfl (fun _ => rfl) rfl
  | start he hw hrun =>
    subst he hw
    exact .start hok hrun
  | @goto τ b hact hgo =>
    obtain ⟨hstands, hleads⟩ := hgo.stands hok hattached (hsession.stands τ)
    exact hsession.setBody (.of_conns rfl) rfl (fun _ => rfl) hleads hstands
  | reconnect _ hb => exact hsession.beginReconnect (by rw [hb]; rfl)
  | @take σ a c f inbox _ _ hb =>
    have hkeeps : w.Keeps (w.modifyConn c fun conn => { conn with inbox := inbox }) :=
      .modifyConn fun conn hlive => ⟨hlive, rfl, rfl, fun _ h => h⟩
    have hstands := hsession.stands σ
    rw [hb] at hstands
    exact hsession.setBody hkeeps rfl (fun _ => rfl) (fun _ => by rw [hb]; rfl)
      (World.SetUp.keeps hstands hkeeps)
  | @supervise τ c stage conn hreturns hb hb₀ hconn hat hopen =>
    have hfresh : w₀.subscriptions = [] :=
      hok.fresh τ (by rw [hreturns.event]; rfl) c (by rw [hb₀, hb]; rfl) hreturns
    exact hsession.supervise hb hconn hat (hopen.trans hfresh)
  | call _ hframed _ hconn hcalls => exact hsession.call hframed hconn hcalls
  | resume _ _ _ _ _ hresumes => exact hsession.resume hresumes
  | _ => exact hsession.keeps (.of_conns rfl) (.inl rfl) (fun _ => .inl rfl)

/-- In every run of orderly steps, a supervise task that pumps frames from an open connection
has had the handshake on it accepted and every entry of the registry sent. -/
theorem pumped_connection_set_up {es : List Event}
    (hrun : Transition.Run (step cfg) Orderly World.init es w) {σ c : ℕ} {conn : Connection}
    (hpumps : (w.body σ).pumps = some c) (hconn : w.conns[c]? = some conn)
    (hlive : conn.sock = .live) :
    conn.connectedAt.isSome = true ∧ ∀ entry ∈ conn.registryAtOpen, EntrySent cfg conn entry := by
  have hsession : Session cfg w :=
    invariant_of_moves hrun .init
      (fun hok _ _ hsound hsession _ hmove => hmove.session hok hsound.attached hsession)
  have hsetUp := (hsession.stands σ).of_pumps hpumps
  obtain ⟨haccepted, hreplayed⟩ := hsetUp conn hconn hlive
  refine ⟨haccepted, ?_⟩
  intro entry hentry
  rcases hreplayed entry hentry with hrest | hsent
  · cases hrest
  · exact hsent

/-- A subscribed client reconnects, the Proxy accepts the handshake, and the replayed
`subscribe()` times out. -/
def replayedEvents : List Event :=
  subscribeEvents ++ [.sockClosed 0 true, .socketEnd 1, .tick 1, .wake 1] ++ openEvents 1 1 ++
    [.sent 1, .tick 10, .timeout 1, .tick 1, .wake 1]

/-- The replay of one entry is through when the task reads again, although its ack never came. -/
theorem pumped_connection_set_up_replayed :
    ∃ w, Transition.Run (step (.sample .kraken none)) Orderly World.init replayedEvents w ∧
      ∃ conn, w.conns[1]? = some conn ∧ conn.registryAtOpen = [("ticker", .empty)] ∧
        conn.connectedAt.isSome = true ∧
        ∀ entry ∈ conn.registryAtOpen, EntrySent (.sample .kraken none) conn entry := by
  obtain ⟨w, hrun, hpumps, conn, hconn, hlive, hregistry⟩ :
      ∃ w, Transition.Run (step (.sample .kraken none)) Orderly World.init replayedEvents w ∧
        (w.body 1).pumps = some 1 ∧ ∃ conn ∈ w.conns[1]?, conn.sock = .live ∧
          conn.registryAtOpen = [("ticker", .empty)] :=
    Transition.Run.exists_of_exec (by decide +kernel)
  exact ⟨w, hrun, conn, hconn, hregistry, pumped_connection_set_up hrun hpumps hconn hlive⟩

/-- A subscribed client reconnects, and the Proxy refuses the handshake and keeps the socket
open. -/
def refusedEvents : List Event :=
  subscribeEvents ++ [.sockClosed 0 true, .socketEnd 1, .tick 1, .wake 1, .connected 1,
    .authSent 1, .frame 1 ⟨.json (.obj [("code", .str "AUTH_FAILED")]), none⟩, .authReply 1]

/-- The supervise task pumps the refused connection, on which nothing was replayed. -/
theorem refused_connection_pumped :
    ∃ w, Transition.Run (step (.sample .kraken none)) Transition.always World.init
        refusedEvents w ∧
      w.subscriptions = [("ticker", .empty)] ∧ (w.body 1).pumps = some 1 ∧
      ∃ conn ∈ w.conns[1]?, conn.sock = .live ∧ conn.connectedAt = none ∧
        conn.sent = [.auth] :=
  Transition.Run.exists_of_exec (by decide +kernel)

end ProxyClient.Websocket
