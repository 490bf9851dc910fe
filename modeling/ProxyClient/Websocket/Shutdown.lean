import ProxyClient.Websocket.Ending

/-!
# What `stop()` leaves behind

`stop()` cancels the background tasks, closes the connection and cancels the calls in flight. It
does so for the tasks and the connection that it finds, and only on a client that runs: a
`start()` that is still connecting opens its socket after `stop()` has gone, and a client whose
supervise task has given up keeps its heartbeat task.
-/

namespace ProxyClient.Websocket

open Transition

variable {cfg : Config} {w₀ w w' : World} {e : Event} {τ σ c k : ℕ}

/-- A step after which `stop()` can still end all that the client began. -/
structure Stoppable (cfg : Config) (w : World) (e : Event) : Prop extends Replaces cfg w e where
  /-- A `start()` gets its socket and has its handshake accepted only while the client runs. -/
  opens : ∀ τ ∈ e.task, ∀ c ∈ (w.body τ).starts, e = .connected τ ∨ OpenReturns w τ c e →
    w.running = true
  /-- A `start()` begins after the heartbeat task before it has ended. -/
  rested : e = .start → w.running = false → ∀ τ < w.tasks.length, (w.body τ).role ≠ .heartbeat
  /-- So does a `stop()` of a client that does not run, unless another `stop()` is under way. -/
  again : e = .stop → w.running = false → (∀ τ < w.tasks.length, (w.body τ).role ≠ .stop) →
    ∀ τ < w.tasks.length, (w.body τ).role ≠ .heartbeat
  /-- A ping begins when no other is outstanding. -/
  apart : Begins w e .ping → ∀ k < w.rpc.calls.length, ¬w.rpc.Outstanding k

instance (cfg : Config) (w : World) (e : Event) : Decidable (Stoppable cfg w e) :=
  decidable_of_iff
    (Replaces cfg w e ∧
      (∀ τ ∈ e.task, ∀ c ∈ (w.body τ).starts, e = .connected τ ∨ OpenReturns w τ c e →
        w.running = true) ∧
      (e = .start → w.running = false → ∀ τ < w.tasks.length, (w.body τ).role ≠ .heartbeat) ∧
      (e = .stop → w.running = false → (∀ τ < w.tasks.length, (w.body τ).role ≠ .stop) →
        ∀ τ < w.tasks.length, (w.body τ).role ≠ .heartbeat) ∧
      (Begins w e .ping → ∀ k < w.rpc.calls.length, ¬w.rpc.Outstanding k))
    ⟨fun ⟨hreplaces, hopens, hrested, hagain, hapart⟩ =>
        ⟨hreplaces, hopens, hrested, hagain, hapart⟩,
      fun h => ⟨h.toReplaces, h.opens, h.rested, h.again, h.apart⟩⟩

/-! ## Steps of the other tasks -/

/-- A step that begins no `start()` and no `stop()`, creates no task and is not taken by a
`stop()`. -/
structure Proceeds (w : World) (e : Event) : Prop where
  start : e ≠ .start
  stop : e ≠ .stop
  stops : ∀ τ pc, Acts w e τ → w.body τ ≠ .stop pc
  creates : ∀ τ c stage, OpenReturns w τ c e → w.body τ ≠ .start c stage

/-- In such a step a task keeps its role or ends. -/
theorem Proceeds.role (hp : Proceeds w₀ e) (h : Moves cfg w₀ e w₀ w) {r : Role}
    (hr : (w.body τ).role = r) (hdone : r ≠ .done) : (w₀.body τ).role = r := by
  rcases h.role τ with hended | hsame | ⟨-, hcreates⟩
  · exact absurd (hr.symm.trans hended) hdone
  · exact hsame.symm.trans hr
  · rw [hr] at hcreates
    cases hcreates with
    | start he => exact absurd he hp.start
    | stop he => exact absurd he hp.stop
    | supervise hreturns hb => exact absurd hb (hp.creates _ _ _ hreturns)
    | heartbeat hreturns hb => exact absurd hb (hp.creates _ _ _ hreturns)

/-- On a client that does not run, a task gets to no other connection than the one on which it
works. -/
theorem Goes.worksOn {b b' : Body} (h : Goes cfg w₀ e w τ b b') (hrun : w.running = false)
    (hworks : b'.worksOn = some c) : b.worksOn = some c := by
  cases h with
  | enter _ hrunning =>
    rw [hrun] at hrunning
    cases hrunning
  | reopen => exact hworks
  | start => exact hworks
  | read => exact hworks
  | handle => exact hworks
  | recancel => exact hworks
  | _ => cases hworks

/-- Awaiting a call it works on the connection on which it worked before. -/
theorem Calls.worksOn {call : Call} {b b' : Body} (h : Calls w₀ w τ k call b b')
    (hworks : b'.worksOn = some c) : b.worksOn = some c := by
  cases h with
  | callback => exact hworks
  | _ => cases hworks

/-- It goes on there after the call. -/
theorem Resumes.worksOn {outcome : Outcome} {b b' : Body} (h : Resumes τ k outcome b b')
    (hworks : b'.worksOn = some c) : b.worksOn = some c := by
  cases h with
  | callback => exact hworks
  | _ => cases hworks

/-- A client that does not run keeps its connection, and its tasks work on no other. -/
theorem Moves.stopped (h : Moves cfg w₀ e w₀ w) (hp : Proceeds w₀ e) (hrun : w₀.running = false) :
    w.conn = w₀.conn ∧ ∀ τ c, (w.body τ).worksOn = some c → (w₀.body τ).worksOn = some c := by
  induction h with
  | refl => exact ⟨rfl, fun _ _ hworks => hworks⟩
  | @tail w w' hchain hlast ih =>
    have hstopped : w.running = false := by
      by_contra hrunning
      rcases Moves.running hchain (by simpa using hrunning) with h | he
      · rw [hrun] at h
        cases h
      · exact hp.start he
    obtain ⟨hconn, hworks⟩ := ih
    have setBody {w₁ : World} {τ₁ : ℕ} {b : Body} (hsame : ∀ τ, w₁.body τ = w.body τ)
        (hb : ∀ c, b.worksOn = some c → (w.body τ₁).worksOn = some c) (τ c : ℕ)
        (hc : ((w₁.setBody τ₁ b).body τ).worksOn = some c) : (w₀.body τ).worksOn = some c := by
      rcases World.body_setBody_cases (w := w₁) (τ := τ₁) (b := b) τ with ⟨rfl, hnew, -⟩ | hold
      · exact hworks τ c (hb c (hnew ▸ hc))
      · exact hworks τ c (hsame τ ▸ hold ▸ hc)
    cases hlast with
    | drop hstop =>
      rcases hstop with ⟨-, he⟩ | ⟨τ, pc, hact, hb⟩
      · exact absurd he hp.stop
      · obtain ⟨pc₀, hb₀⟩ := Body.role_eq_stop.mp
          (hp.role hchain (τ := τ) (r := .stop) (by rw [hb]; rfl) (by decide))
        exact absurd hb₀ (hp.stops τ pc₀ hact)
    | start he => exact absurd he hp.start
    | goto hact hgo =>
      exact ⟨hconn, setBody (fun _ => rfl) (fun c hc => hgo.worksOn hstopped hc)⟩
    | reconnect _ _ _ hrunning =>
      rw [hstopped] at hrunning
      cases hrunning
    | take _ _ hb =>
      refine ⟨hconn, setBody (fun _ => rfl) ?_⟩
      intro c hc
      rw [hb]
      exact hc
    | supervise hreturns hb hb₀ => exact absurd (hb₀.trans hb) (hp.creates _ _ _ hreturns)
    | heartbeat hreturns hb => exact absurd hb (hp.creates _ _ _ hreturns)
    | stop he => exact absurd he hp.stop
    | cancelTask τ₁ =>
      refine ⟨hconn, fun τ c hc => hworks τ c ?_⟩
      rwa [World.body_requestCancel] at hc
    | call _ _ _ _ hcalls =>
      exact ⟨hconn, setBody (fun _ => rfl) (fun c hc => hcalls.worksOn hc)⟩
    | endCall =>
      refine ⟨by rwa [conn_endCall], fun τ c hc => hworks τ c ?_⟩
      rwa [body_endCall] at hc
    | @resume _ k _ outcome _ _ _ _ _ _ hresumes =>
      exact ⟨(conn_endCall cfg w k outcome).trans hconn,
        setBody (fun τ => body_endCall cfg w k outcome τ) (fun c hc => hresumes.worksOn hc)⟩
    | _ => exact ⟨hconn, hworks⟩

/-- A call that waits after moves that begin no call waited before them. -/
theorem Rpc.Moves.waits {d : Dialect} {r r' : Rpc} (h : Rpc.Moves d r r') (hinv : r.Inv d)
    (hk : r'.Waits k) : r.Waits k ∨ r.calls.length ≤ k := by
  induction h with
  | refl => exact .inl hk
  | tail hchain hlast ih =>
    rcases hlast.waits (hinv.moves hchain) hk with hold | hnew
    · exact ih hold
    · refine .inr ?_
      have hextends : r.Extends _ := Rpc.Moves.extends hchain
      by_contra hlt
      obtain ⟨call, hcall, -⟩ := hextends k _ (List.getElem?_eq_getElem (by omega))
      have := (List.getElem?_eq_some_iff.mp hcall).1
      omega

/-- A step that keeps pings apart keeps the slot with the outstanding ping throughout. -/
theorem Moves.pingHeld (h : Moves cfg w₀ e w₀ w)
    (hapart : Begins w₀ e .ping → ∀ k < w₀.rpc.calls.length, ¬w₀.rpc.Outstanding k)
    (hsound : Sound cfg w₀) (hheld : w₀.rpc.PingHeld) : w.rpc.PingHeld := by
  induction h with
  | refl => exact hheld
  | tail hchain hlast ih => exact hlast.pingHeld hapart (hsound.moves hchain).rpc ih

/-- A call that raises at once does not wait. -/
theorem waits_of_refused {call : Call} (hinv : w.rpc.Inv cfg.dialect) (hframed : Framed cfg w call)
    (hk : (w.refused call).rpc.Waits k) : w.rpc.Waits k := by
  have hregister : Rpc.Move cfg.dialect w.rpc ((w.rpc.draw call.op).register call) :=
    .register hframed.frame hframed.phase
  have hlast : ((w.rpc.draw call.op).register call).calls[w.rpc.calls.length]? = some call := by
    simp [Rpc.register]
  have hfinish : Rpc.Move cfg.dialect ((w.rpc.draw call.op).register call)
      (w.refused call).rpc := .finish hlast (by simp)
  rcases hfinish.waits (hinv.register hframed.frame hframed.phase) hk with hold | hnew
  · rcases hregister.waits hinv hold with hold | hnew
    · exact hold
    · obtain ⟨call', hcall', hended⟩ := hk.call
      subst hnew
      simp only [World.refused, Rpc.calls_finish hlast, List.getElem?_modify_eq, hlast] at hcall'
      obtain rfl := Option.some.inj hcall'
      cases hended
  · obtain ⟨call', hcall', -⟩ := hk.call
    have hlt := (List.getElem?_eq_some_iff.mp hcall').1
    simp only [World.refused, Rpc.calls_finish hlast, List.length_modify] at hlt
    omega

/-- A supervise task that gives up leaves nothing behind: `_pump` has returned, so that the only
open socket is gone, no other task leads, and the futures have been failed. -/
theorem Halts.ceased (h : Halts cfg w₀ e w) (hchain : Moves cfg w₀ e w₀ w) (hp : Proceeds w₀ e)
    (hok : Stoppable cfg w₀ e) (hsound : Sound cfg w₀) (hsole : w₀.running = true → Sole w₀)
    (hheld : w₀.rpc.PingHeld) (hsession : OneSession w₀) (hrunning : w.running = true) :
    Ceased w := by
  cases h with
  | stop he => exact absurd he hp.stop
  | @giveUp σ a pc hact hb₀ hended hempty hpump =>
    have hsound' := hsound.moves hchain
    have hsole' : Sole w := Moves.sole hchain hok.toReplaces hsound hsole hrunning
    have hrun₀ := running_of_acts hchain hrunning hact
    have hlead : (w₀.body σ).leads = true := by rw [hb₀]; rfl
    have hother (τ : ℕ) (hτ : τ ≠ σ) : (w.body τ).leads = false := by
      by_contra hleads
      have hleads₀ : (w₀.body τ).leads = true := by
        have hrole := Body.leads_iff.mp (Bool.not_eq_false _ ▸ hleads)
        rw [Body.leads_iff]
        exact hrole.imp (fun h => hp.role hchain h (by decide))
          (fun h => hp.role hchain h (by decide))
      exact hτ (hsession.leader τ σ hleads₀ hlead)
    refine ⟨hpump.closed_sockets hok.toReplaces hrun₀ (hsole hrun₀) hsound'.attached
      hsole'.held hother, ?_,
      (Moves.pingHeld hchain hok.apart hsound hheld).not_waits hsound'.rpc hempty⟩
    intro τ hτ
    by_cases heq : τ = σ
    · have hτ' : (w.body τ).role = .supervise := hτ
      rw [heq, hended] at hτ'
      cases hτ'
    · have hleads : (w.body τ).leads = true := Body.leads_iff.mpr (.inr hτ)
      rw [hother τ heq] at hleads
      cases hleads

/-- A step without a `stop()` after which the client does not run leaves nothing behind. -/
theorem Moves.ceased (h : Moves cfg w₀ e w₀ w) (hp : Proceeds w₀ e) (hok : Stoppable cfg w₀ e)
    (hsound : Sound cfg w₀) (hsole : w₀.running = true → Sole w₀) (hheld : w₀.rpc.PingHeld)
    (hsession : OneSession w₀) (hidle : w₀.running = false → Ceased w₀)
    (hrun : w.running = false) : Ceased w := by
  induction h with
  | refl => exact hidle hrun
  | @tail w w' hchain hlast ih =>
    have hsound' := hsound.moves hchain
    have tasks (hstopped : w.running = false) (τ : ℕ) : (w'.body τ).role ≠ .supervise := by
      intro hrole
      rcases hlast.role (Moves.tasks_length hchain) τ with hdone | hsame | ⟨-, hcreates⟩
      · rw [hrole] at hdone
        cases hdone
      · exact (ih hstopped).supervise τ (hsame ▸ hrole)
      · rw [hrole] at hcreates
        cases hcreates with
        | supervise hreturns hb => exact hp.creates _ _ _ hreturns hb
    have sockets (hstopped : w.running = false) (c : ℕ) : w'.socketOpen c = false := by
      by_contra hne
      rcases hlast.socketOpen (c := c) (by simpa using hne) with hold | ⟨τ, he, hw, hopening⟩
      · simp [(ih hstopped).sockets c] at hold
      · subst hw
        rcases World.opening_of_opening? hopening with ⟨a, stage, hb⟩ | ⟨stage, hb⟩
        · exact (hidle hstopped).supervise τ (by rw [hb]; rfl)
        · have hrunning := hok.opens τ (by rw [he]; rfl) c (by rw [hb]; rfl) (.inl he)
          rw [hstopped] at hrunning
          cases hrunning
    have keeps (hstopped : w.running = false)
        (hlength : w'.rpc.calls.length = w.rpc.calls.length) : Ceased w' := by
      refine ⟨sockets hstopped, tasks hstopped, ?_⟩
      intro k hk
      rcases hlast.rpc.waits hsound'.rpc hk with hold | hle
      · exact (ih hstopped).calls k hold
      · obtain ⟨call, hcall, -⟩ := hk.call
        have := (List.getElem?_eq_some_iff.mp hcall).1
        omega
    have silent {call : Call} {c : ℕ} (hstopped : w.running = false) (hframed : Framed cfg w call)
        (hconn : call.conn = some c) : False := by
      rw [hframed.conn, World.sendConn_eq_none (ih hstopped).sockets] at hconn
      cases hconn
    cases hlast with
    | halt hrunning hhalts =>
      have hceased := hhalts.ceased hchain hp hok hsound hsole hheld hsession hrunning
      exact ⟨hceased.sockets, hceased.supervise, hceased.calls⟩
    | start he => exact absurd he hp.start
    | draw op => exact keeps hrun (by simp)
    | launch _ hframed _ hconn => exact (silent hrun hframed hconn).elim
    | call _ hframed _ hconn => exact (silent hrun hframed hconn).elim
    | @refuse call hrpc hframed =>
      refine ⟨sockets hrun, tasks hrun, ?_⟩
      intro k hk
      exact (ih hrun).calls k (waits_of_refused hsound'.rpc hframed hk)
    | await => exact keeps hrun (by simp [Rpc.await])
    | endCall _ hcall =>
      rw [endCall_eq] at hrun
      exact keeps hrun (by simp [rpc_endCall, Rpc.calls_finish hcall])
    | resume _ _ hcall =>
      rw [endCall_eq] at hrun
      exact keeps hrun (by simp [rpc_endCall, Rpc.calls_finish hcall])
    | _ => exact keeps hrun rfl

/-- Only `open()` opens a socket, in a step that connects it. -/
theorem Moves.socketOpen (h : Moves cfg w₀ e w₀ w) (hopen : w.socketOpen c = true) :
    w₀.socketOpen c = true ∨ ∃ τ, e = .connected τ ∧ w₀.opening? τ = some (c, .connecting) := by
  induction h with
  | refl => exact .inl hopen
  | tail _ hlast ih =>
    rcases hlast.socketOpen hopen with hold | ⟨τ, he, rfl, hopening⟩
    · exact ih hold
    · exact .inr ⟨τ, he, hopening⟩

/-- A step of another task goes on while the `stop()` waits, or while there is none. -/
theorem Winds.proceed (h : Winds w) (hsound : Sound cfg w) (hok : Stoppable cfg w e)
    (hsole : w.running = true → Sole w) (hheld : w.rpc.PingHeld) (hp : Proceeds w e)
    (hstep : step cfg w e = some w') : Winds w' := by
  have hmoves := step_moves hsound.linked hstep
  have hrole {τ : ℕ} {r : Role} (hr : (w'.body τ).role = r) (hdone : r ≠ .done) :
      (w.body τ).role = r := hp.role hmoves hr hdone
  have hsupervise : w'.superviseTask = w.superviseTask := by
    rcases hmoves.superviseTask with hsame | hcreates
    · exact hsame
    · cases hcreates with
      | supervise hreturns hb => exact absurd hb (hp.creates _ _ _ hreturns)
  have hheartbeat : w'.heartbeatTask = w.heartbeatTask := by
    rcases hmoves.heartbeatTask with hsame | hcreates
    · exact hsame
    · cases hcreates with
      | heartbeat hreturns hb => exact absurd hb (hp.creates _ _ _ hreturns)
  have hstops {τ : ℕ} {pc : StopAt} (hb : w.body τ = .stop pc) : w'.body τ = .stop pc := by
    rw [hmoves.body_of_not_acts (fun hact => hp.stops τ pc hact hb) (by simp [hb]), hb]
  have hstopping {τ : ℕ} {pc : StopAt} (hb : w'.body τ = .stop pc) : w.body τ = .stop pc := by
    obtain ⟨pc₀, hb₀⟩ := Body.role_eq_stop.mp (hrole (τ := τ) (r := .stop) (by rw [hb]; rfl)
      (by decide))
    rw [hb₀, ← hstops hb₀, hb]
  refine ⟨?_, ?_, ?_⟩
  · refine h.session.of_roles (fun hr hdone _ => hrole hr hdone) ?_ hsupervise hheartbeat
    exact fun τ τ' hτ hτ' => h.session.stop τ τ' (hrole hτ (by decide)) (hrole hτ' (by decide))
  · intro τ pc hb
    obtain ⟨hstopped, hholds, hsees⟩ := h.stopping τ pc (hstopping hb)
    obtain ⟨hconn, hworks⟩ := hmoves.stopped hp hstopped
    refine ⟨?_, ⟨?_, ?_⟩, ?_⟩
    · by_contra hrunning
      rcases hmoves.running (by simpa using hrunning) with hrun | he
      · rw [hstopped] at hrun
        cases hrun
      · exact hp.start he
    · intro c hc
      rw [hconn]
      rcases hmoves.socketOpen hc with hold | ⟨τ', -, hopening⟩
      · exact hholds.held c hold
      · apply hholds.works τ' c
        rcases World.opening_of_opening? hopening with ⟨a, stage, hb'⟩ | ⟨stage, hb'⟩ <;>
          rw [hb'] <;> rfl
    · exact fun τ' c hc => hconn ▸ hholds.works τ' c (hworks τ' c hc)
    · cases pc with
      | awaitingSupervise σ heartbeat =>
        exact ⟨hsupervise.trans hsees.1, hsees.2.trans hheartbeat.symm⟩
      | awaitingHeartbeat η =>
        exact ⟨fun τ hτ => hsees.1 τ (hrole hτ (by decide)), hheartbeat.trans hsees.2⟩
      | closing c =>
        exact ⟨fun τ hτ => hsees.1 τ (hrole hτ (by decide)),
          fun τ hτ => hsees.2.1 τ (hrole hτ (by decide)), hconn.trans hsees.2.2⟩
  · intro hrun hnone
    refine hmoves.ceased hp hok hsound hsole hheld h.session ?_ hrun
    intro hstopped
    apply h.idle hstopped
    intro τ hτ
    obtain ⟨pc, hb⟩ := Body.role_eq_stop.mp hτ
    exact hnone τ (by rw [hstops hb]; rfl)

/-- A client that was stopped stays so until it is started. -/
theorem WindsUp.proceed (h : WindsUp w) (hsound : Sound cfg w) (hp : Proceeds w e)
    (hstep : step cfg w e = some w') : WindsUp w' := by
  have hmoves := step_moves hsound.linked hstep
  constructor
  · by_contra hrunning
    rcases hmoves.running (by simpa using hrunning) with hrun | he
    · rw [h.stopped] at hrun
      cases hrun
    · exact hp.start he
  · rcases h.heartbeat with ⟨τ, hτ⟩ | hnone
    · obtain ⟨pc, hb⟩ := Body.role_eq_stop.mp hτ
      refine .inl ⟨τ, ?_⟩
      rw [hmoves.body_of_not_acts (fun hact => hp.stops τ pc hact hb) (by simp [hb]), hτ]
    · exact .inr fun τ hτ => hnone τ (hp.role hmoves hτ (by decide))

/-! ## Steps of `start()` -/

/-- A `start()` that returns does not switch the client on: `start()` did so when it began. -/
theorem running_started (cfg : Config) (w : World) (τ : ℕ) :
    (w.started cfg τ).running = w.running := by
  unfold World.started
  split <;> rfl

/-- The heartbeat task that `start()` creates is what `_heartbeat_task` holds from then on. -/
theorem started_heartbeatTask (cfg : Config) {w : World} {η : ℕ} (hle : w.tasks.length ≤ η)
    (hrole : ((w.started cfg τ).body η).role = .heartbeat) :
    (w.started cfg τ).heartbeatTask = some η := by
  have hold (w₁ : World) (hbody : w₁.body = (w.finish τ).body) :
      ((w₁.spawn (.supervise 0 .ready)).body η).role ≠ .heartbeat := by
    rcases World.body_spawn_cases (w := w₁) (b := .supervise 0 .ready) η with ⟨-, hb⟩ | hb
    · rw [hb]
      decide
    · have hfinished : (w.finish τ).body η = .finished := by
        by_contra hne
        have := World.lt_of_body_ne hne
        simp at this
        omega
      rw [hb, hbody, hfinished]
      decide
  unfold World.started at hrole ⊢
  simp only at hrole ⊢
  split at hrole
  · exact absurd hrole (hold _ rfl)
  · rename_i interval hinterval
    set w₁ : World := World.spawn
      { w.finish τ with superviseTask := some (w.finish τ).tasks.length } (.supervise 0 .ready)
    rcases World.body_spawn_cases
      (w := { w₁ with heartbeatTask := some w₁.tasks.length }) (b := .heartbeat .ready) η with
      ⟨hη, -⟩ | hb
    · rw [hη]
      rfl
    · rw [hb] at hrole
      exact absurd hrole (hold _ rfl)

/-- The `open()` of a `start()` returns, and its tasks are created on a client that still runs. -/
theorem Winds.create {stage : OpenStage} (h : Winds w) (hok : Stoppable cfg w e)
    (hb : w.body τ = .start c stage) (hreturns : OpenReturns w τ c e)
    (hstep : step cfg w e = some w') : Winds w' ∧ w'.running = true := by
  have hlead : (w.body τ).leads = true := by rw [hb]; rfl
  have hrun : w.running = true :=
    hok.opens τ (by rw [hreturns.event]; rfl) c (by rw [hb]; rfl) (.inr hreturns)
  obtain ⟨conns, -, rfl⟩ := started_of_returns hb hreturns hstep
  set w₁ : World := { w with conns := conns }
  have hlt : τ < w₁.tasks.length := World.lt_of_body_ne (τ := τ) (by
    have hb₁ : w₁.body τ = .start c stage := hb
    simp [hb₁])
  have hrun' : (w₁.started cfg τ).running = true := (running_started cfg w₁ τ).trans hrun
  have back {τ' : ℕ} {r : Role} (hr : ((w₁.started cfg τ).body τ').role = r) (hdone : r ≠ .done) :
      ((w.body τ').role = r ∧ τ' ≠ τ) ∨ (τ' = w.tasks.length ∧ r = .supervise) ∨
        (τ' = w.tasks.length + 1 ∧ r = .heartbeat) :=
    role_started (w := w₁) hlt hr hdone
  have leads {τ' : ℕ} {r : Role} (hr : (w.body τ').role = r) (hstart : r = .start ∨ r = .supervise)
      (hne : τ' ≠ τ) : False :=
    hne (h.session.leader τ' τ (Body.leads_iff.mpr (hr ▸ hstart)) hlead)
  have hleader {τ' : ℕ} (hτ' : ((w₁.started cfg τ).body τ').leads = true) :
      τ' = w.tasks.length := by
    rcases Body.leads_iff.mp hτ' with hr | hr
    · rcases back hr (by decide) with ⟨hold, hne⟩ | ⟨-, hnew⟩ | ⟨-, hnew⟩
      · exact (leads hold (.inl rfl) hne).elim
      · cases hnew
      · cases hnew
    · rcases back hr (by decide) with ⟨hold, hne⟩ | ⟨hτ, -⟩ | ⟨-, hnew⟩
      · exact (leads hold (.inr rfl) hne).elim
      · exact hτ
      · cases hnew
  have hstop {τ' : ℕ} (hτ' : ((w₁.started cfg τ).body τ').role = .stop) :
      (w.body τ').role = .stop := by
    rcases back hτ' (by decide) with ⟨hold, -⟩ | ⟨-, hnew⟩ | ⟨-, hnew⟩
    · exact hold
    · cases hnew
    · cases hnew
  refine ⟨⟨⟨?_, ?_, ?_, ?_, ?_⟩, ?_, ?_⟩, hrun'⟩
  · exact fun τ₁ τ₂ hτ₁ hτ₂ => (hleader hτ₁).trans (hleader hτ₂).symm
  · exact fun τ₁ τ₂ hτ₁ hτ₂ => h.session.stop τ₁ τ₂ (hstop hτ₁) (hstop hτ₂)
  · intro σ hσ
    rw [hleader (Body.leads_iff.mpr (.inr hσ))]
    exact (started_superviseTask cfg w₁ τ).1
  · intro η hη
    rcases back hη (by decide) with ⟨hold, -⟩ | ⟨-, hnew⟩ | ⟨hτ, -⟩
    · exact absurd hold (h.session.start τ η (by rw [hb]; rfl))
    · cases hnew
    · exact started_heartbeatTask cfg (by rw [hτ]; exact Nat.le_succ _) hη
  · intro τ' η hτ' _
    rcases back hτ' (by decide) with ⟨hold, hne⟩ | ⟨-, hnew⟩ | ⟨-, hnew⟩
    · exact leads hold (.inl rfl) hne
    · cases hnew
    · cases hnew
  · intro τ' pc hpc
    obtain ⟨pc₀, hpc₀⟩ := Body.role_eq_stop.mp (hstop (by rw [hpc]; rfl))
    rw [(h.stopping τ' pc₀ hpc₀).1] at hrun
    cases hrun
  · intro hstopped _
    rw [hrun'] at hstopped
    cases hstopped

/-- A `start()` begins on a client of which nothing goes on. -/
theorem Winds.begin (hok : Stoppable cfg w .start) (hrun : w.running = false) :
    Winds w.beginStart := by
  have hnone (τ : ℕ) : (w.body τ).leads = false ∧ (w.body τ).role ≠ .stop ∧
      (w.body τ).role ≠ .heartbeat := by
    refine ⟨?_, World.role_ne_of_lt (by decide) (fun τ hτ => (hok.alone rfl hrun τ hτ).2) τ,
      World.role_ne_of_lt (by decide) (hok.rested rfl hrun) τ⟩
    by_contra hleads
    have hlt : τ < w.tasks.length := by
      apply World.lt_of_body_ne
      intro hb
      rw [hb] at hleads
      exact hleads rfl
    exact hleads (hok.alone rfl hrun τ hlt).1
  have hw : w.beginStart = World.spawn { w with
      running := true, shutdown := false, conns := w.conns ++ [({} : Connection)],
      conn := some w.conns.length } (.start w.conns.length .connecting) := by
    rw [World.beginStart, if_neg (by simp [hrun])]
  have back {τ : ℕ} {r : Role} (hr : (w.beginStart.body τ).role = r) (hdone : r ≠ .done) :
      τ = w.tasks.length ∧ r = .start := by
    rw [hw] at hr
    rcases World.body_spawn_cases (w := { w with
      running := true, shutdown := false, conns := w.conns ++ [({} : Connection)],
      conn := some w.conns.length }) (b := .start w.conns.length .connecting) τ with
      ⟨hτ, hb⟩ | hb
    · rw [hb] at hr
      exact ⟨hτ, hr.symm⟩
    · have hold : (w.body τ).role = r := by rwa [hb] at hr
      obtain ⟨hleads, hstop, hheartbeat⟩ := hnone τ
      cases r with
      | start => simp [Body.leads_iff.mpr (.inl hold)] at hleads
      | supervise => simp [Body.leads_iff.mpr (.inr hold)] at hleads
      | stop => exact absurd hold hstop
      | heartbeat => exact absurd hold hheartbeat
      | done => exact absurd rfl hdone
  have hleader {τ : ℕ} (hτ : (w.beginStart.body τ).leads = true) : τ = w.tasks.length := by
    rcases Body.leads_iff.mp hτ with hr | hr
    · exact (back hr (by decide)).1
    · exact (back hr (by decide)).1
  refine ⟨⟨?_, ?_, ?_, ?_, ?_⟩, ?_, ?_⟩
  · exact fun τ τ' hτ hτ' => (hleader hτ).trans (hleader hτ').symm
  · exact fun τ _ hτ => by cases (back hτ (by decide)).2
  · exact fun σ hσ => by cases (back hσ (by decide)).2
  · exact fun η hη => by cases (back hη (by decide)).2
  · exact fun _ η _ hη => by cases (back hη (by decide)).2
  · intro τ pc hpc
    cases (back (r := .stop) (by rw [hpc]; rfl) (by decide)).2
  · intro hstopped _
    rw [hw] at hstopped
    cases hstopped

/-! ## Runs -/

/-- All that a client began is in hand. -/
structure InHand (cfg : Config) (w : World) : Prop where
  sound : Sound cfg w
  sole : w.running = true → Sole w
  pings : w.rpc.PingHeld
  winds : Winds w

/-- Before the first `start()` there is nothing to have in hand. -/
theorem InHand.init : InHand cfg World.init where
  sound := .init cfg
  sole h := by cases h
  pings k hk := by
    have hpending := hk.pending
    simp [World.init, Rpc.future] at hpending
  winds := by
    have hnone (τ : ℕ) : World.init.body τ = .finished := by simp [World.init, World.body]
    have hsession : OneSession World.init := by
      constructor <;> simp [hnone, Body.leads, Body.role]
    refine ⟨hsession, by simp [hnone], fun _ _ => ⟨?_, by simp [hnone, Body.role], ?_⟩⟩
    · simp [World.socketOpen, World.sock, World.init, Sock.isOpen]
    · intro k hk
      have hpending := hk.pending
      simp [World.init, Rpc.future] at hpending

/-- Every step of the condition keeps all in hand, and what was stopped stays stopped. -/
theorem InHand.step (h : InHand cfg w) (hok : Stoppable cfg w e) (hstep : step cfg w e = some w') :
    InHand cfg w' ∧ (e = .stop ∨ (WindsUp w ∧ e ≠ .start) → WindsUp w') := by
  have hmoves := step_moves h.sound.linked hstep
  have hkeeps : Winds w' → InHand cfg w' := fun hwinds =>
    ⟨h.sound.moves hmoves, hmoves.sole hok.toReplaces h.sound h.sole,
      hmoves.pingHeld hok.apart h.sound h.pings, hwinds⟩
  by_cases hstop : e = .stop
  · subst hstop
    cases hrun : w.running with
    | true =>
      have hw : w.beginStop = w' := by simpa [step, hrun] using hstep
      obtain ⟨hwinds, hup⟩ := h.winds.beginStop h.sound (h.sole hrun) h.pings
      exact ⟨hkeeps (hw ▸ hwinds), fun _ => hw ▸ hup⟩
    | false =>
      obtain rfl : w = w' := by simpa [step, hrun] using hstep
      refine ⟨h, fun _ => ⟨hrun, ?_⟩⟩
      by_cases hstops : ∃ τ, (w.body τ).role = .stop
      · exact .inl hstops
      · exact .inr (World.role_ne_of_lt (by decide)
          (hok.again rfl hrun fun τ _ hτ => hstops ⟨τ, hτ⟩))
  by_cases hstart : e = .start
  · subst hstart
    have hw : w.beginStart = w' := Option.some.inj hstep
    refine ⟨hkeeps ?_, by simp⟩
    cases hrun : w.running with
    | true =>
      rw [World.beginStart, if_pos hrun] at hw
      exact hw ▸ h.winds
    | false => exact hw ▸ .begin hok hrun
  by_cases hstops : ∃ τ pc, Acts w e τ ∧ w.body τ = .stop pc
  · obtain ⟨τ, pc, hact, hb⟩ := hstops
    have hlt : τ < w.tasks.length := World.lt_of_body_ne (by simp [hb])
    have htask := task_of_acts h.sound.linked hstep hact hlt (by rw [hb]; rfl)
    obtain ⟨hwinds, hup⟩ := h.winds.stopStep h.sound h.pings hb htask hstep
    exact ⟨hkeeps hwinds, fun _ => hup⟩
  by_cases hcreates : ∃ τ c stage, OpenReturns w τ c e ∧ w.body τ = .start c stage
  · obtain ⟨τ, c, stage, hreturns, hb⟩ := hcreates
    obtain ⟨hwinds, -⟩ := h.winds.create hok hb hreturns hstep
    refine ⟨hkeeps hwinds, ?_⟩
    rintro (he | ⟨hup, -⟩)
    · exact absurd he hstop
    · have hrun := hok.opens τ (by rw [hreturns.event]; rfl) c (by rw [hb]; rfl) (.inr hreturns)
      rw [hup.stopped] at hrun
      cases hrun
  have hp : Proceeds w e :=
    ⟨hstart, hstop, fun τ pc hact hb => hstops ⟨τ, pc, hact, hb⟩,
      fun τ c stage hreturns hb => hcreates ⟨τ, c, stage, hreturns, hb⟩⟩
  refine ⟨hkeeps (h.winds.proceed h.sound hok h.sole h.pings hp hstep), ?_⟩
  rintro (he | ⟨hup, -⟩)
  · exact absurd he hstop
  · exact hup.proceed h.sound hp hstep

end ProxyClient.Websocket
