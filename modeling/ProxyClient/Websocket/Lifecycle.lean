import ProxyClient.Websocket.Supervise
import ProxyClient.Websocket.Setup

/-!
# The life of the client's tasks

A task keeps its role until it ends. `start()` and `stop()` are tasks of their own, and the
supervise and the heartbeat task are created when the `open()` of a `start()` returns.
-/

namespace ProxyClient.Websocket

variable {cfg : Config} {w₀ w w' : World} {e : Event} {τ c : ℕ}

/-! ## Roles -/

/-- What a task is there for, as its coroutine says. -/
inductive Role
  | start
  | stop
  | supervise
  | heartbeat
  | done
  deriving DecidableEq

/-- The role of the coroutine of a task. -/
def Body.role : Body → Role
  | .start _ _ => .start
  | .stop _ => .stop
  | .supervise _ _ => .supervise
  | .heartbeat _ => .heartbeat
  | .finished => .done

/-- A step creates a task with this role. -/
inductive Creates (w : World) (e : Event) : Role → Prop
  | start : e = .start → w.running = false → Creates w e .start
  | stop : e = .stop → Creates w e .stop
  | supervise {τ c : ℕ} {stage : OpenStage} : OpenReturns w τ c e → w.body τ = .start c stage →
      Creates w e .supervise
  | heartbeat {τ c : ℕ} {stage : OpenStage} : OpenReturns w τ c e → w.body τ = .start c stage →
      Creates w e .heartbeat

/-- A task is alive while its coroutine has not finished. -/
theorem World.alive_iff {w : World} {τ : ℕ} : w.alive τ = true ↔ w.body τ ≠ .finished := by
  unfold World.alive
  split <;> simp_all

/-- The coroutine that has finished is the one in no role. -/
theorem Body.role_eq_done {b : Body} : b.role = .done ↔ b = .finished := by
  cases b <;> simp [Body.role]

/-- A `start()` works on the connection that it opens. -/
theorem Body.starts_eq_some {b : Body} {c : ℕ} :
    b.starts = some c ↔ ∃ stage, b = .start c stage := by
  cases b <;> simp [Body.starts]

/-- A supervise task is in one of its stages. -/
theorem Body.role_eq_supervise {b : Body} : b.role = .supervise ↔ ∃ a pc, b = .supervise a pc := by
  cases b <;> simp [Body.role]

/-- The pump is entered by a supervise task. -/
theorem Enters.role {σ : ℕ} {b : Body} (h : Enters w₀ e w σ b) : b.role = .supervise := by
  cases h <;> rfl

/-- So is a replay. -/
theorem Replays.role {b : Body} {entry : Entry} {rest : List Entry}
    (h : Replays w b entry rest) : b.role = .supervise := by
  cases h <;> rfl

/-- A task keeps its role until it ends. The task of a `stop()` gets its role in its first step. -/
theorem Goes.role {b b' : Body} (h : Goes cfg w₀ e w τ b b') :
    b'.role = .done ∨ b'.role = b.role ∨ (e = .stop ∧ b'.role = .stop) := by
  cases h with
  | finish => exact .inl rfl
  | enter henter => exact .inr (.inl henter.role.symm)
  | gap hreplays => exact .inr (.inl hreplays.role.symm)
  | stop hb =>
    rcases hb with ⟨pc', rfl⟩ | ⟨-, -, he⟩
    · exact .inr (.inl rfl)
    · exact .inr (.inr ⟨he, rfl⟩)
  | _ => exact .inr (.inl rfl)

/-- It keeps its role when it begins to await a call. -/
theorem Calls.role {k : ℕ} {call : Call} {b b' : Body} (h : Calls w₀ w τ k call b b') :
    b'.role = b.role := by
  cases h with
  | replay _ _ hreplays => exact hreplays.role.symm
  | _ => rfl

/-- It keeps its role after the call as well, if it does not end. -/
theorem Resumes.role {k : ℕ} {outcome : Outcome} {b b' : Body}
    (h : Resumes τ k outcome b b') : b'.role = .done ∨ b'.role = b.role := by
  cases h with
  | finish => exact .inl rfl
  | _ => exact .inr rfl

/-- After a move a task has ended or has the role it had, or it is a new one. -/
theorem Move.role (h : Move cfg w₀ e w w') (hlength : w₀.tasks.length ≤ w.tasks.length) (τ : ℕ) :
    (w'.body τ).role = .done ∨ (w'.body τ).role = (w.body τ).role ∨
      (w₀.tasks.length ≤ τ ∧ Creates w₀ e (w'.body τ).role) := by
  have setBody {τ₁ : ℕ} {b : Body} {w₁ : World} (hsame : (w₁.body τ).role = (w.body τ).role)
      (hnew : τ₁ = τ → b.role = .done ∨ b.role = (w.body τ).role ∨
        (w₀.tasks.length ≤ τ ∧ Creates w₀ e b.role)) :
      ((w₁.setBody τ₁ b).body τ).role = .done ∨
        ((w₁.setBody τ₁ b).body τ).role = (w.body τ).role ∨
        (w₀.tasks.length ≤ τ ∧ Creates w₀ e ((w₁.setBody τ₁ b).body τ).role) := by
    rcases World.body_setBody_cases (w := w₁) (τ := τ₁) (b := b) τ with ⟨rfl, hb, -⟩ | hb
    · rw [hb]
      exact hnew rfl
    · rw [hb]
      exact .inr (.inl hsame)
  have spawn {b : Body} {w₁ : World} (hlt : w₀.tasks.length ≤ w₁.tasks.length)
      (hsame : (w₁.body τ).role = .done ∨ (w₁.body τ).role = (w.body τ).role)
      (hcreates : b.role = .done ∨ Creates w₀ e b.role) :
      ((w₁.spawn b).body τ).role = .done ∨ ((w₁.spawn b).body τ).role = (w.body τ).role ∨
        (w₀.tasks.length ≤ τ ∧ Creates w₀ e ((w₁.spawn b).body τ).role) := by
    rcases World.body_spawn_cases (w := w₁) (b := b) τ with ⟨rfl, hb⟩ | hb
    · rw [hb]
      exact hcreates.imp id (fun h => .inr ⟨hlt, h⟩)
    · rw [hb]
      exact hsame.imp id .inl
  cases h with
  | start he hw hrun => exact spawn hlength (.inr rfl) (.inr (.start he (hw ▸ hrun)))
  | goto hact hgo =>
    apply setBody rfl
    rintro rfl
    rcases hgo.role with hdone | hsame | ⟨he, hstop⟩
    · exact .inl hdone
    · exact .inr (.inl hsame)
    · refine .inr (.inr ⟨?_, hstop ▸ .stop he⟩)
      subst he
      cases hact with
      | stop => exact le_rfl
      | task htask => cases htask
      | call hcallNo => cases hcallNo
  | reconnect _ hb => exact setBody rfl (fun hτ => by subst hτ; rw [hb]; exact .inr (.inl rfl))
  | take _ _ hb => exact setBody rfl (fun hτ => by subst hτ; rw [hb]; exact .inr (.inl rfl))
  | @supervise τ₁ c stage conn hreturns hb hb₀ =>
    have hfinish : ((w.finish τ₁).body τ).role = .done ∨
        ((w.finish τ₁).body τ).role = (w.body τ).role := by
      rcases World.body_setBody_cases (w := w) (τ := τ₁) (b := .finished) τ with ⟨-, hb', -⟩ | hb'
      · exact .inl (by rw [hb']; rfl)
      · exact .inr (by rw [hb'])
    exact spawn (by simpa using hlength) hfinish (.inr (.supervise hreturns (hb₀.trans hb)))
  | heartbeat hreturns hb =>
    exact spawn (by simpa using hlength) (.inr rfl) (.inr (.heartbeat hreturns hb))
  | stop => exact spawn hlength (.inr rfl) (.inl rfl)
  | cancelTask τ₁ =>
    rw [World.body_requestCancel]
    exact .inr (.inl rfl)
  | call _ _ _ _ hcalls =>
    apply setBody rfl
    rintro rfl
    exact .inr (.inl hcalls.role)
  | resume _ _ _ _ _ hresumes =>
    apply setBody (by rw [body_endCall])
    rintro rfl
    exact hresumes.role.imp id .inl
  | endCall =>
    rw [body_endCall]
    exact .inr (.inl rfl)
  | _ => exact .inr (.inl rfl)

/-- No move forgets a task, so a number stands for one task throughout. -/
theorem Move.tasks_length (h : Move cfg w₀ e w w') : w.tasks.length ≤ w'.tasks.length := by
  cases h <;> simp [World.launched, World.refused, World.beginReconnect]

/-- No task is ever removed. -/
theorem Moves.tasks_length (h : Moves cfg w₀ e w w') : w.tasks.length ≤ w'.tasks.length := by
  induction h with
  | refl => exact le_rfl
  | tail _ hlast ih => exact ih.trans hlast.tasks_length

/-- After a step a task has ended or has the role it had, or it is a new one. -/
theorem Moves.role (h : Moves cfg w₀ e w₀ w) (τ : ℕ) :
    (w.body τ).role = .done ∨ (w.body τ).role = (w₀.body τ).role ∨
      (w₀.tasks.length ≤ τ ∧ Creates w₀ e (w.body τ).role) := by
  induction h with
  | refl => exact .inr (.inl rfl)
  | tail hchain hlast ih =>
    rcases hlast.role (Moves.tasks_length hchain) τ with hdone | hsame | hnew
    · exact .inl hdone
    · rw [hsame]
      exact ih
    · exact .inr (.inr hnew)

/-! ## `start()` -/

/-- A `start()` raises in this step, or its caller cancels it. -/
def StartFails (w : World) (τ : ℕ) (e : Event) : Prop :=
  e = .cancelStart τ ∨ ∃ c ∈ (w.body τ).starts, OpenRaises w τ c e

instance (w : World) (τ : ℕ) (e : Event) : Decidable (StartFails w τ e) :=
  inferInstanceAs (Decidable (_ ∨ _))

/-- What a step makes of a `start()` that opens the connection `c`. -/
inductive Starts (cfg : Config) (w : World) (e : Event) (τ c : ℕ) : World → Prop
  /-- `open()` goes on to its next stage. -/
  | goes {conns : List Connection} {stage : OpenStage} :
      Starts cfg w e τ c (World.setBody { w with conns := conns } τ (.start c stage))
  /-- `open()` returns. -/
  | returns {conns : List Connection} : OpenReturns w τ c e →
      Starts cfg w e τ c (World.started cfg { w with conns := conns } τ)
  | fails {conns : List Connection} : StartFails w τ e →
      Starts cfg w e τ c (World.finish { w with conns := conns } τ)

namespace Starts

variable {stage : OpenStage}

/-- `open()` raises, and the `start()` around it ends with the same exception. -/
theorem openFailed {conns : List Connection} (hb : w.body τ = .start c stage)
    (hraises : OpenRaises w τ c e) :
    Starts cfg w e τ c (World.openFailed cfg { w with conns := conns } τ) := by
  have hb' : World.body { w with conns := conns } τ = .start c stage := hb
  simp only [World.openFailed, hb']
  exact .fails (.inr ⟨c, by rw [hb]; rfl, hraises⟩)

/-- `open()` is suspended at its next stage, and the `start()` around it with it. -/
theorem setStage {conns : List Connection} {stage' : OpenStage} (hb : w.body τ = .start c stage) :
    Starts cfg w e τ c (World.setStage { w with conns := conns } τ stage') := by
  have hb' : World.body { w with conns := conns } τ = .start c stage := hb
  simp only [World.setStage, hb']
  exact .goes

/-- `open()` returns, and the `start()` around it creates its tasks and ends. -/
theorem opened {conns : List Connection} (hb : w.body τ = .start c stage)
    (hreturns : OpenReturns w τ c e) :
    Starts cfg w e τ c (World.opened cfg { w with conns := conns } τ c) := by
  have hb' (f : Connection → Connection) :
      (World.modifyConn { w with conns := conns } c f).body τ = .start c stage := hb
  simp only [World.opened, hb']
  exact .returns hreturns

/-- One step of `open()` leaves the `start()` in one of these ways. -/
theorem of_openStep (hb : w.body τ = .start c stage) (htask : e.task = some τ)
    (h : w.openStep cfg τ e = some w') : Starts cfg w e τ c w' := by
  have hopening : w.opening? τ = some (c, stage) := by simp [World.opening?, hb]
  cases opens_of_openStep hopening htask h with
  | connected => exact setStage hb
  | sent => exact setStage hb
  | raised hraises => exact openFailed hb hraises
  | refused _ _ hraises => exact openFailed hb hraises
  | accepted _ hreturns => exact opened hb hreturns

/-- A label that resumes the `start()` is a step of its `open()`. -/
theorem of_task (hb : w.body τ = .start c stage) (htask : e.task = some τ)
    (h : step cfg w e = some w') : Starts cfg w e τ c w' := by
  cases e <;> cases htask
  case connected | connectFailed | authSent | authSendFailed | authReply | authTimeout
      | authClosed => exact of_openStep hb rfl (step_guarded h)
  case cancelStart =>
    simp only [step, hb] at h
    cases h
    exact .fails (.inl rfl)
  all_goals
    simp [step, World.runStep, World.recvStep, World.socketEndStep, World.callbackCallStep,
      World.callbackEndStep, World.wakeStep, World.closeDoneStep, World.stopStep,
      World.cancelStep, hb] at h

/-- What any step makes of the `start()` that takes it. -/
theorem of_acts (hsound : Sound cfg w) (hb : w.body τ = .start c stage) (hact : Acts w e τ)
    (h : step cfg w e = some w') : Starts cfg w e τ c w' := by
  have hlt : τ < w.tasks.length := World.lt_of_body_ne (by simp [hb])
  exact of_task hb (task_of_acts hsound.linked h hact hlt (by rw [hb]; rfl)) h

end Starts

/-- The `start()` whose `open()` returns creates the background tasks. -/
theorem started_of_returns {stage : OpenStage} (hb : w.body τ = .start c stage)
    (hreturns : OpenReturns w τ c e) (h : step cfg w e = some w') :
    ∃ conns, conns.length = w.conns.length ∧
      w' = World.started cfg { w with conns := conns } τ := by
  have hopening : w.opening? τ = some (c, stage) := by simp [World.opening?, hb]
  obtain rfl := hreturns.event
  cases opens_of_openStep hopening rfl (step_guarded h) with
  | raised _ hne => exact absurd rfl hne
  | refused _ _ hraises => exact absurd hraises hreturns.not_raises
  | accepted =>
    have hb' (f g : Connection → Connection) :
        ((w.modifyConn c f).modifyConn c g).body τ = .start c stage := hb
    simp only [World.opened, hb']
    exact ⟨_, by simp, rfl⟩

/-- The supervise task that `start()` creates is what `_supervise_task` holds from then on. -/
theorem started_superviseTask (cfg : Config) (w : World) (τ : ℕ) :
    (w.started cfg τ).superviseTask = some w.tasks.length ∧
      (w.started cfg τ).body w.tasks.length = .supervise 0 .ready := by
  have hlength : (w.finish τ).tasks.length = w.tasks.length := by simp
  have hbody (w₁ : World) (h : w₁.tasks.length = w.tasks.length) :
      (w₁.spawn (.supervise 0 .ready)).body w.tasks.length = .supervise 0 .ready :=
    h ▸ World.body_spawn_self w₁ _
  unfold World.started
  simp only [hlength]
  split
  · exact ⟨rfl, hbody _ hlength⟩
  · refine ⟨rfl, ?_⟩
    rw [World.body_spawn_of_ne _ (by simp)]
    exact hbody _ hlength

/-- The tasks after a `start()` has returned: its own has ended, and the new ones are ready. -/
theorem body_started (cfg : Config) (w : World) (τ τ' : ℕ) :
    (w.started cfg τ).body τ' = (w.finish τ).body τ' ∨
      (τ' = w.tasks.length ∧ (w.started cfg τ).body τ' = .supervise 0 .ready) ∨
      (τ' = w.tasks.length + 1 ∧ (w.started cfg τ).body τ' = .heartbeat .ready) := by
  have supervised (w₁ : World) (hbody : w₁.body = (w.finish τ).body)
      (hlength : w₁.tasks.length = w.tasks.length) :
      (w₁.spawn (.supervise 0 .ready)).body τ' = (w.finish τ).body τ' ∨
        (τ' = w.tasks.length ∧ (w₁.spawn (.supervise 0 .ready)).body τ' = .supervise 0 .ready) := by
    rcases World.body_spawn_cases (w := w₁) (b := .supervise 0 .ready) τ' with ⟨hτ, hb⟩ | hb
    · exact .inr ⟨hτ.trans hlength, hb⟩
    · exact .inl (hb.trans (congrFun hbody τ'))
  unfold World.started
  simp only
  split
  · exact (supervised _ rfl (by simp)).imp id .inl
  · set w₁ : World := World.spawn
      { w.finish τ with superviseTask := some (w.finish τ).tasks.length } (.supervise 0 .ready)
    rcases World.body_spawn_cases
      (w := { w₁ with heartbeatTask := some w₁.tasks.length }) (b := .heartbeat .ready) τ' with
      ⟨hτ, hb⟩ | hb
    · exact .inr (.inr ⟨by simpa [w₁] using hτ, hb⟩)
    · rcases supervised _ rfl (by simp) with hold | ⟨hτ, hnew⟩
      · exact .inl (hb.trans hold)
      · exact .inr (.inl ⟨hτ, hb.trans hnew⟩)

/-- A `start()` that has returned has ended, whatever tasks it created. -/
theorem body_started_self (cfg : Config) {w : World} {τ : ℕ} (hlt : τ < w.tasks.length) :
    (w.started cfg τ).body τ = .finished := by
  rcases body_started cfg w τ τ with hold | ⟨hτ, -⟩ | ⟨hτ, -⟩
  · rw [hold]
    exact World.body_setBody_self _ hlt
  · omega
  · omega

/-- The tasks after the end of `open()`: the `start()` has ended, and the background tasks are
new. -/
theorem role_started {r : Role} (hlt : τ < w.tasks.length)
    (hr : ((w.started cfg τ).body σ).role = r) (hdone : r ≠ .done) :
    ((w.body σ).role = r ∧ σ ≠ τ) ∨ (σ = w.tasks.length ∧ r = .supervise) ∨
      (σ = w.tasks.length + 1 ∧ r = .heartbeat) := by
  rcases body_started cfg w τ σ with hold | ⟨hσ, hnew⟩ | ⟨hσ, hnew⟩
  · have hne : σ ≠ τ := by
      rintro rfl
      rw [body_started_self cfg hlt] at hr
      exact hdone hr.symm
    rw [hold, World.body_setBody_of_ne _ hne] at hr
    exact .inl ⟨hr, hne⟩
  · exact .inr (.inl ⟨hσ, by rw [← hr, hnew]; rfl⟩)
  · exact .inr (.inr ⟨hσ, by rw [← hr, hnew]; rfl⟩)

/-! ## The state of the client -/

/-- Only `start()` sets a client running, and it does so when it begins. -/
theorem Moves.running (h : Moves cfg w₀ e w₀ w) (hrun : w.running = true) :
    w₀.running = true ∨ e = .start := by
  induction h with
  | refl => exact .inl hrun
  | tail _ hlast ih =>
    cases hlast with
    | start he => exact .inr he
    | halt => cases hrun
    | endCall =>
      rw [endCall_eq] at hrun
      exact ih hrun
    | resume =>
      rw [World.setBody_running, endCall_eq] at hrun
      exact ih hrun
    | _ => exact ih hrun

/-- `_supervise_task` changes only when a supervise task is created. -/
theorem Moves.superviseTask (h : Moves cfg w₀ e w₀ w) :
    w.superviseTask = w₀.superviseTask ∨ Creates w₀ e .supervise := by
  induction h with
  | refl => exact .inl rfl
  | tail _ hlast ih =>
    cases hlast with
    | supervise hreturns hb hb₀ => exact .inr (.supervise hreturns (hb₀.trans hb))
    | endCall =>
      rw [endCall_eq]
      exact ih
    | resume =>
      rw [World.setBody_superviseTask, endCall_eq]
      exact ih
    | _ => exact ih

/-- `_heartbeat_task` changes only when a heartbeat task is created. -/
theorem Moves.heartbeatTask (h : Moves cfg w₀ e w₀ w) :
    w.heartbeatTask = w₀.heartbeatTask ∨ Creates w₀ e .heartbeat := by
  induction h with
  | refl => exact .inl rfl
  | tail _ hlast ih =>
    cases hlast with
    | heartbeat hreturns hb => exact .inr (.heartbeat hreturns hb)
    | endCall =>
      rw [endCall_eq]
      exact ih
    | resume =>
      rw [World.setBody_heartbeatTask, endCall_eq]
      exact ih
    | _ => exact ih

/-- No move forgets a connection, so a number stands for one connection throughout. -/
theorem Moves.conns_length (h : Moves cfg w₀ e w w') : w.conns.length ≤ w'.conns.length := by
  induction h with
  | refl => exact le_rfl
  | tail _ hlast ih =>
    apply ih.trans
    cases hlast <;> simp [World.launched, World.refused, World.beginReconnect]

/-- A `start()` keeps its connection as long as it is under way. -/
theorem starts_of_step (hsound : Sound cfg w) (h : step cfg w e = some w')
    (hstarts : (w'.body τ).starts = some c) :
    (w.body τ).starts = some c ∨
      (e = .start ∧ w.running = false ∧ τ = w.tasks.length ∧ c = w.conns.length) := by
  have hmoves := step_moves hsound.linked h
  obtain ⟨stage, hb⟩ := Body.starts_eq_some.mp hstarts
  have hrole : (w'.body τ).role = .start := by rw [hb]; rfl
  rcases hmoves.role τ with hdone | hsame | ⟨hle, hcreates⟩
  · rw [hrole] at hdone
    cases hdone
  · rw [hrole] at hsame
    obtain ⟨c₀, stage₀, hb₀⟩ : ∃ c₀ stage₀, w.body τ = .start c₀ stage₀ := by
      cases hb₀ : w.body τ <;> rw [hb₀] at hsame <;> cases hsame
      exact ⟨_, _, rfl⟩
    have hlt : τ < w.tasks.length := World.lt_of_body_ne (by simp [hb₀])
    have hne : w'.body τ ≠ .finished := by simp [hb]
    refine .inl ?_
    by_cases hact : Acts w e τ
    · cases Starts.of_acts hsound hb₀ hact h with
      | @goes conns stage₁ =>
        have hself : (World.setBody { w with conns := conns } τ (.start c₀ stage₁)).body τ =
          .start c₀ stage₁ := World.body_setBody_self _ hlt
        obtain ⟨rfl, -⟩ := Body.start.inj (hself.symm.trans hb)
        rw [hb₀]
        rfl
      | @returns conns =>
        have hlt' : τ < (World.tasks { w with conns := conns }).length := hlt
        exact absurd (body_started_self cfg hlt') hne
      | fails => exact absurd (World.body_setBody_self _ hlt) hne
    · rw [hmoves.body_of_not_acts hact (by simp [hb₀])] at hstarts
      exact hstarts
  · rw [hrole] at hcreates
    cases hcreates with
    | start he hrun =>
      subst he
      have hw : w.beginStart = w' := Option.some.inj h
      rw [World.beginStart, if_neg (by simp [hrun])] at hw
      subst hw
      refine .inr ⟨rfl, hrun, ?_⟩
      rcases World.body_spawn_cases (w := { w with
        running := true, shutdown := false, conns := w.conns ++ [({} : Connection)],
        conn := some w.conns.length }) (b := .start w.conns.length .connecting) τ with
        ⟨hτ, hb'⟩ | hb'
      · obtain ⟨rfl, -⟩ := Body.start.inj (hb'.symm.trans hb)
        exact ⟨hτ, rfl⟩
      · have hold : w.body τ = .start c stage := hb'.symm.trans hb
        have hlt : τ < w.tasks.length := World.lt_of_body_ne (by simp [hold])
        omega

end ProxyClient.Websocket
