import ProxyClient.Websocket.Generations

/-!
# A `start()` that fails

`start()` sets `_running` and publishes its connection before it awaits `open()`, and it takes
neither back when `open()` raises or its caller cancels it. A failed `start()` therefore leaves
the client as it was only where others have undone what it did: `_running` is reset by a `stop()`
or by a supervise task that gives up, and a socket is closed by a `stop()` or by the server.
-/

namespace ProxyClient.Websocket

open Transition

variable {cfg : Config} {w u w' : World} {e : Event} {es fs : List Event} {τ c n : ℕ}

/-- A `start()` has begun as the first one does, on a fresh connection. -/
structure Begun (w : World) (τ c : ℕ) : Prop where
  running : w.running = true
  waits : w.shutdown = false
  held : w.conn = some c
  fresh : w.conns[c]? = some {}
  task : w.body τ = .start c .connecting

/-- The client at the end of a run is as it was before the `start()` that ran as task `τ` and
opened the connection `c`. -/
structure Restored (cfg : Config) (es : List Event) (w : World) (τ c : ℕ) : Prop where
  stopped : w.running = false
  disconnected : w.isConnected = false
  closed : w.socketOpen c = false
  /-- The `start()` created no background task. -/
  alone : ∀ n, (τ, n) ∉ creations cfg es
  /-- A later `start()` is accepted and begins as a first one. -/
  restarts : ∃ v, step cfg w .start = some v ∧ Begun v w.tasks.length w.conns.length

/-- What a step makes of `_running`, if it changes it. -/
def switches (cfg : Config) (w : World) (e : Event) : Option Bool :=
  match step cfg w e with
  | some w' => if w'.running = w.running then none else some w'.running
  | none => none

/-- Others have undone what a `start()` did that began in `w` and raises in `u`. -/
structure Undone (cfg : Config) (w : World) (fs : List Event) (u : World) (c : ℕ) : Prop where
  /-- The client was stopped after the `start()` had begun, and not started since. -/
  stopped : (outputs (step cfg) (switches cfg) w (.start :: fs)).getLast? = some false
  /-- The socket was never connected, or it has been closed. -/
  closed : u.sock c = .absent ∨ ∃ clean, u.sock c = .closed clean
  /-- So it is with the connection that `_conn` holds, where it is another one. -/
  held : ∀ c' ∈ u.conn, u.isOpen c' = false

/-- On a client that does not run, every `start()` begins as the first one does. -/
theorem Begun.of_idle (hidle : w.running = false) :
    Begun w.beginStart w.tasks.length w.conns.length := by
  unfold World.beginStart
  rw [if_neg (by simp [hidle])]
  exact ⟨rfl, rfl, rfl, List.getElem?_concat_length, World.body_spawn_self _ _⟩

/-! ## Who changes `_running` -/

/-- The last value that a list of values leaves. -/
theorem foldl_last {α : Type*} (a : α) (l : List α) :
    l.foldl (fun _ b => b) a = l.getLast?.getD a := by
  induction l generalizing a with
  | nil => rfl
  | cons b l ih => rw [List.foldl_cons, ih, List.getLast?_cons, Option.getD_some]

/-- At the end of a run `_running` is what the last step that changed it made of it. -/
theorem running_of_run (hrun : Run (step cfg) always w es u) :
    u.running = (outputs (step cfg) (switches cfg) w es).getLast?.getD w.running := by
  rw [← foldl_last]
  apply hrun.foldl_outputs
  intro es' t e v _ hstep
  simp only [switches, hstep]
  split
  · rename_i hsame
    exact hsame
  · rfl

/-- A `start()` that is accepted sets `_running`, before it opens its connection. -/
theorem switches_start (hidle : w.running = false) : switches cfg w .start = some true := by
  simp [switches, step, World.beginStart, hidle]

/-- Whether the client runs after a `start()` that was accepted. -/
theorem stopped_iff (hidle : w.running = false)
    (hrun : Run (step cfg) always w (.start :: fs) u) :
    (outputs (step cfg) (switches cfg) w (.start :: fs)).getLast? = some false ↔
      u.running = false := by
  have hne : outputs (step cfg) (switches cfg) w (.start :: fs) ≠ [] := by
    have hstep : step cfg w .start = some w.beginStart := rfl
    simp [outputs, hstep, switches_start hidle]
  obtain ⟨b, hb⟩ := Option.ne_none_iff_exists'.mp (mt List.getLast?_eq_none_iff.mp hne)
  rw [running_of_run hrun, hb]
  simp

/-! ## What a failed `start()` leaves -/

/-- What the end of a `start()` that raises keeps of the client. -/
structure Leaves (w w' : World) : Prop where
  running : w'.running = w.running
  conn : w'.conn = w.conn
  sock : ∀ c, w'.sock c = w.sock c
  isOpen : ∀ c, w'.isOpen c = w.isOpen c

/-- A frame is read from a connection and the `start()` ends. -/
theorem Leaves.pop (w : World) (τ c : ℕ) (inbox : List Inbound) :
    Leaves w ((w.modifyConn c (fun conn => { conn with inbox := inbox })).finish τ) := by
  have hconns (c' : ℕ) : (w.modifyConn c (fun conn => { conn with inbox := inbox })).conns[c']? =
      w.conns[c']?.map (fun conn => if c = c' then { conn with inbox := inbox } else conn) := by
    rw [World.modifyConn_conns, List.getElem?_modify]
    cases w.conns[c']? <;> simp
  refine ⟨rfl, rfl, ?_, ?_⟩
  · intro c'
    simp only [World.sock, World.setBody_conns, hconns, Option.map_map]
    congr 2
    funext conn
    simp only [Function.comp_apply]
    split <;> rfl
  · intro c'
    simp only [World.isOpen, World.setBody_conns, hconns, Option.map_map]
    congr 2
    funext conn
    simp only [Function.comp_apply]
    split <;> rfl

/-- Only a `start()` that is under way can raise. -/
theorem StartFails.starts (hfails : StartFails w τ e) (hstep : step cfg w e = some w') :
    ∃ c, (w.body τ).starts = some c := by
  rcases hfails with rfl | ⟨c, hstarts, -⟩
  · simp only [step] at hstep
    split at hstep
    · rename_i c stage hb
      exact ⟨c, by rw [hb]; rfl⟩
    · cases hstep
  · exact ⟨c, hstarts⟩

/-- A `start()` that raises ends its task and takes nothing back. -/
theorem StartFails.leaves (hfails : StartFails w τ e) (hstep : step cfg w e = some w') :
    Leaves w w' := by
  have ends : Leaves w (w.finish τ) := ⟨rfl, rfl, fun _ => rfl, fun _ => rfl⟩
  rcases hfails with rfl | ⟨c, hstarts, hraises⟩
  · simp only [step] at hstep
    split at hstep
    · cases hstep
      exact ends
    · cases hstep
  · obtain ⟨stage, hb⟩ := Body.starts_eq_some.mp hstarts
    have hended (v : World) (hbody : v.body τ = .start c stage) :
        v.openFailed cfg τ = v.finish τ := by
      simp only [World.openFailed, hbody]
    have htask : e.task = some τ := by
      cases hraises <;> rfl
    have hopen : w.openStep cfg τ e = some w' := by
      cases hraises <;> exact step_guarded hstep
    have hopening : w.opening? τ = some (c, stage) := by simp [World.opening?, hb]
    cases opens_of_openStep hopening htask hopen with
    | connected => cases hraises
    | sent halone =>
      cases hraises with
      | concurrent hother =>
        rw [halone] at hother
        cases hother
    | raised =>
      rw [hended w hb]
      exact ends
    | @refused _ f inbox =>
      have hpop := hended (w.modifyConn c (fun conn => { conn with inbox := inbox })) hb
      rw [hpop]
      exact Leaves.pop w τ c inbox
    | accepted _ hreturns => exact absurd hraises hreturns.not_raises

/-! ## Background tasks -/

/-- Tasks are created by a `start()` whose `open()` returns. -/
theorem returns_of_createsTasks (h : createsTasks w e = some (τ, n)) :
    ∃ c ∈ (w.body τ).starts, OpenReturns w τ c e := by
  unfold createsTasks at h
  split at h
  · split at h
    · rename_i hreturns
      obtain ⟨rfl, -⟩ := Prod.mk.inj (Option.some.inj h)
      exact hreturns
    · cases h
  · cases h

/-- A `start()` that has created tasks has ended. -/
theorem ended_of_creations (hrun : Run (step cfg) always World.init es w)
    (h : (τ, n) ∈ creations cfg es) : τ < w.tasks.length ∧ w.body τ = .finished := by
  induction hrun generalizing n with
  | nil => simp [creations, outputs] at h
  | @snoc es t v e hes _ hstep ih =>
    have hsound := sound_of_run hes
    rw [creations, hes.outputs_snoc hstep, List.mem_append] at h
    have hmoves := step_moves hsound.linked hstep
    rcases h with hold | hnew
    · obtain ⟨hlt, hended⟩ := ih hold
      refine ⟨hlt.trans_le hmoves.tasks_length, Body.role_eq_done.mp ?_⟩
      rcases hmoves.role τ with hdone | hsame | ⟨hle, -⟩
      · exact hdone
      · rw [hsame, hended]
        rfl
      · omega
    · obtain ⟨c, hstarts, hreturns⟩ := returns_of_createsTasks (by simpa using hnew)
      obtain ⟨stage, hb⟩ := Body.starts_eq_some.mp hstarts
      have hlt : τ < t.tasks.length := World.lt_of_body_ne (by simp [hb])
      obtain ⟨conns, -, rfl⟩ := started_of_returns hb hreturns hstep
      exact ⟨hlt.trans_le hmoves.tasks_length,
        body_started_self cfg (w := { t with conns := conns }) hlt⟩

/-- The step in which a `start()` raises creates no tasks for it. -/
theorem StartFails.createsTasks_ne (hfails : StartFails w τ e) :
    createsTasks w e ≠ some (τ, n) := by
  intro hcreates
  obtain ⟨c, hstarts, hreturns⟩ := returns_of_createsTasks hcreates
  rcases hfails with rfl | ⟨c', hstarts', hraises⟩
  · cases hreturns.event
  · obtain rfl := Option.some.inj (hstarts.symm.trans hstarts')
    exact hreturns.not_raises hraises

/-! ## The law -/

/-- In every run in which a `start()` is accepted and raises, with any other steps in between,
the client is as it was before if and only if others have undone what the `start()` did. -/
theorem start_atomic_iff (hrun : Run (step cfg) always World.init es w)
    (hidle : w.running = false) (hstart : Run (step cfg) always w (.start :: fs) u)
    (hfails : StartFails u w.tasks.length e) (hstep : step cfg u e = some w') :
    Restored cfg (es ++ .start :: fs ++ [e]) w' w.tasks.length w.conns.length ↔
      Undone cfg w fs u w.conns.length := by
  have hleaves := hfails.leaves hstep
  have hstopped := stopped_iff hidle hstart
  have hclosed (c : ℕ) : w'.socketOpen c = false ↔
      u.sock c = .absent ∨ ∃ clean, u.sock c = .closed clean := by
    unfold World.socketOpen
    rw [hleaves.sock]
    cases u.sock c <;> simp [Sock.isOpen]
  have hheld : w'.isConnected = false ↔ ∀ c' ∈ u.conn, u.isOpen c' = false := by
    unfold World.isConnected
    rw [hleaves.conn, funext hleaves.isOpen]
    cases u.conn <;> simp
  constructor
  · intro h
    exact ⟨hstopped.mpr (hleaves.running.symm.trans h.stopped), (hclosed _).mp h.closed,
      hheld.mp h.disconnected⟩
  · intro h
    have hrunning : w'.running = false := hleaves.running.trans (hstopped.mp h.stopped)
    have hall : Run (step cfg) always World.init (es ++ .start :: fs) u := hrun.append hstart
    refine ⟨hrunning, hheld.mpr h.held, (hclosed _).mpr h.closed, ?_, w'.beginStart, rfl, ?_⟩
    · intro n hn
      rw [creations, hall.outputs_snoc hstep, List.mem_append] at hn
      rcases hn with hold | hnew
      · obtain ⟨c, hstarts⟩ := hfails.starts hstep
        rw [(ended_of_creations hall hold).2] at hstarts
        cases hstarts
      · exact hfails.createsTasks_ne (by simpa using hnew)
    · exact Begun.of_idle hrunning

/-- The Proxy does not answer the handshake of a `start()`, which a `stop()` then closes. -/
def stoppedStartEvents : List Event :=
  [.connected 0, .authSent 0, .stop, .closeDone 1]

/-- A `start()` that fails after a `stop()` leaves nothing behind, as the `stop()` has undone what
it set. -/
theorem start_atomic_iff_stopped :
    ∃ w', Run (step (.sample .kraken none)) always World.init
        ([] ++ .start :: stoppedStartEvents ++ [.authClosed 0]) w' ∧
      Restored (.sample .kraken none) ([] ++ .start :: stoppedStartEvents ++ [.authClosed 0])
        w' 0 0 := by
  obtain ⟨u, hstart, hfails, hclosed, hheld⟩ :
      ∃ u, Run (step (.sample .kraken none)) always World.init (.start :: stoppedStartEvents) u ∧
        StartFails u 0 (.authClosed 0) ∧ u.sock 0 = .closed true ∧ u.conn = none :=
    Run.exists_of_exec (by decide +kernel)
  obtain ⟨w', hrun⟩ : ∃ w', Run (step (.sample .kraken none)) always World.init
      ([] ++ .start :: stoppedStartEvents ++ [.authClosed 0]) w' :=
    Run.exists_of_isSome (by decide +kernel)
  obtain ⟨v, hv, -, hstep⟩ := hrun.of_snoc
  obtain rfl := hstart.unique hv
  have hswitches : (outputs (step (.sample .kraken none)) (switches (.sample .kraken none))
      World.init (.start :: stoppedStartEvents)).getLast? = some false := by decide +kernel
  exact ⟨w', hrun, (start_atomic_iff .nil rfl hstart hfails hstep).mpr
    ⟨hswitches, .inr ⟨true, hclosed⟩, by simp [hheld]⟩⟩

/-- The Proxy does not answer the handshake of a `start()` within the timeout. -/
def silentProxyEvents : List Event := [.connected 0, .authSent 0, .tick 15]

/-- After the `start()` has raised, the client runs and its socket is open, and a later `start()`
is refused. -/
theorem failed_start_leaks :
    ∃ u w', Run (step (.sample .kraken none)) always World.init (.start :: silentProxyEvents) u ∧
      StartFails u 0 (.authTimeout 0) ∧
      step (.sample .kraken none) u (.authTimeout 0) = some w' ∧ w'.running = true ∧
      w'.isConnected = true ∧ w'.socketOpen 0 = true ∧ beginsStart w' .start = none ∧
      ¬Restored (.sample .kraken none) ([] ++ .start :: silentProxyEvents ++ [.authTimeout 0])
        w' 0 0 := by
  obtain ⟨u, hstart, hfails, w', hstep, hrunning, hconnected, hopen, hbegins⟩ :
      ∃ u, Run (step (.sample .kraken none)) always World.init (.start :: silentProxyEvents) u ∧
        StartFails u 0 (.authTimeout 0) ∧
        ∃ w' ∈ step (.sample .kraken none) u (.authTimeout 0), w'.running = true ∧
          w'.isConnected = true ∧ w'.socketOpen 0 = true ∧ beginsStart w' .start = none :=
    Run.exists_of_exec (by decide +kernel)
  refine ⟨u, w', hstart, hfails, hstep, hrunning, hconnected, hopen, hbegins, ?_⟩
  intro h
  rw [h.stopped] at hrunning
  cases hrunning

end ProxyClient.Websocket
