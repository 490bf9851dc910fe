import ProxyClient.Websocket.Lifecycle

/-!
# A supervise task that has ended is announced

When the supervise task of a client ends, nothing reads from its connection and nothing
reconnects any more. `run_forever()` sees that only if `_shutdown_event` is set, and `start()` is
accepted only if `_running` is false. Both fail where the reconnect policy raises, where a
restart fails, and where a `CancelledError` of an earlier `stop()` reaches the supervise task of
a client that runs again.
-/

namespace ProxyClient.Websocket

variable {cfg : Config} {w₀ w w' : World} {e : Event}

/-- A step that ends no supervise task of a client that runs on. -/
structure Tends (cfg : Config) (w : World) (e : Event) : Prop where
  /-- The policy does not raise when the supervise task calls it. -/
  answers : ∀ σ ∈ w.superviseTask, ∀ call ∈ policyCall cfg σ w e, ∀ policy ∈ cfg.reconnect,
    policy call.attempt ≠ .raises
  /-- A `start()` that fails on a running client finds no supervise task that has ended. -/
  starts : ∀ τ ∈ e.task, StartFails w τ e → w.running = true →
    ∀ σ ∈ w.superviseTask, w.alive σ = true
  /-- A `CancelledError` ends the supervise task of a stopped client only. -/
  cancels : ∀ σ ∈ w.superviseTask, Cancels w σ e → w.running = false

instance (w : World) (σ : ℕ) (e : Event) : Decidable (Cancels w σ e) :=
  decidable_of_iff ((e = .deliverCancel σ ∧ (w.body σ).pumps = none) ∨
      ∃ k ∈ e.callNo, e = .resume k ∧ (w.body σ).awaits σ = some (.replay σ, k) ∧
        w.rpc.future k = some .cancelled) <| by
    constructor
    · rintro (⟨rfl, hpumps⟩ | ⟨k, -, rfl, hawaits, hfuture⟩)
      · exact .task hpumps
      · rcases Body.awaits_cases hawaits with
          ⟨howner, -⟩ | ⟨-, a, rest, hb⟩ | ⟨howner, -⟩
        · cases howner
        · exact .future hb hfuture
        · cases howner
    · intro h
      cases h with
      | task hpumps => exact .inl ⟨rfl, hpumps⟩
      | future hb hfuture => exact .inr ⟨_, rfl, rfl, by rw [hb]; rfl, hfuture⟩

instance (cfg : Config) (w : World) (e : Event) : Decidable (Tends cfg w e) :=
  decidable_of_iff
    ((∀ σ ∈ w.superviseTask, ∀ call ∈ policyCall cfg σ w e, ∀ policy ∈ cfg.reconnect,
        policy call.attempt ≠ .raises) ∧
      (∀ τ ∈ e.task, StartFails w τ e → w.running = true →
        ∀ σ ∈ w.superviseTask, w.alive σ = true) ∧
      (∀ σ ∈ w.superviseTask, Cancels w σ e → w.running = false))
    ⟨fun ⟨hanswers, hstarts, hcancels⟩ => ⟨hanswers, hstarts, hcancels⟩,
      fun h => ⟨h.answers, h.starts, h.cancels⟩⟩

/-! ## The shutdown event -/

/-- A client that has connected and does not run was shut down. -/
structure ShutDown (w : World) : Prop where
  event : w.conns ≠ [] → w.running = false → w.shutdown = true
  connected : w.superviseTask ≠ none → w.conns ≠ []

/-- Every move keeps it: only `stop()` and the end of a supervise task switch a client off, and both
set the event. -/
theorem ShutDown.move (h : ShutDown w) (hmove : Move cfg w₀ e w w') : ShutDown w' := by
  cases hmove with
  | alter => exact ⟨by simpa using h.event, by simpa using h.connected⟩
  | halt => exact ⟨fun _ _ => rfl, h.connected⟩
  | start => exact ⟨fun _ hstopped => (by cases hstopped), fun _ => by simp⟩
  | reconnect _ _ _ hrun =>
    refine ⟨fun _ hstopped => ?_, fun _ => by simp [World.beginReconnect]⟩
    rw [World.beginReconnect, World.setBody_running, hrun] at hstopped
    cases hstopped
  | take => exact ⟨by simpa using h.event, by simpa using h.connected⟩
  | supervise _ _ _ hconn =>
    refine ⟨h.event, fun _ hnil => ?_⟩
    have hempty : w.conns = [] := hnil
    rw [hempty] at hconn
    cases hconn
  | launch =>
    simp only [World.launched]
    exact ⟨by simpa using h.event, by simpa using h.connected⟩
  | call =>
    simp only [World.launched]
    exact ⟨by simpa using h.event, by simpa using h.connected⟩
  | endCall => rw [endCall_eq]; exact ⟨h.event, h.connected⟩
  | resume => rw [endCall_eq]; exact ⟨h.event, h.connected⟩
  | _ => exact ⟨h.event, h.connected⟩

/-- A client that has never started has nothing to announce. -/
theorem ShutDown.init : ShutDown World.init := ⟨fun h => absurd rfl h, fun h => absurd rfl h⟩

/-- Every step keeps a client that does not run shut down. -/
theorem ShutDown.step (h : ShutDown w) (hlinked : Linked w) (hstep : step cfg w e = some w') :
    ShutDown w' := by
  have hmoves := step_moves hlinked hstep
  clear hstep
  induction hmoves with
  | refl => exact h
  | tail _ hlast ih => exact ih.move hlast

/-! ## The supervise task -/

/-- `_supervise_task` is a supervise task, and while the client runs it is alive or a `start()`
is under way. -/
structure Supervised (w : World) : Prop where
  role : ∀ σ ∈ w.superviseTask,
    σ < w.tasks.length ∧ ((w.body σ).role = .supervise ∨ (w.body σ).role = .done)
  live : w.running = true → ∀ σ ∈ w.superviseTask,
    w.alive σ = true ∨ ∃ τ c, (w.body τ).starts = some c

/-- A supervise task that takes a step lives on or its client stops. -/
theorem Turns.alive {σ a : ℕ} (h : Turns cfg w e σ a w') (hok : Tends cfg w e)
    (htask : w.superviseTask = some σ) (hlt : σ < w.tasks.length) (hrun : w.running = true)
    (hrun' : w'.running = true) : w'.body σ ≠ .finished := by
  cases h with
  | goes _ hb => simp [hb]
  | ends _ hstopped => simp [hrun'] at hstopped
  | cancelled _ hcancels => simp [hok.cancels σ htask hcancels] at hrun
  | @asks policy conns rpc lastError hpolicy _ hcall heq =>
    subst heq
    set w₁ : World := { w with conns := conns, rpc := rpc }
    have hlt₁ : σ < w₁.tasks.length := hlt
    rcases pumpReturned_cases (a := a) hlt₁ hrun hpolicy lastError with
      ⟨-, hstopped, -⟩ | ⟨hraises, -⟩ | ⟨delay, -, ⟨pc, hb⟩, -⟩
    · simp [hrun'] at hstopped
    · exact absurd hraises (hok.answers σ htask _ hcall policy hpolicy)
    · simp [hb]

namespace Supervised

/-- A client that has never started has no supervise task. -/
theorem init : Supervised World.init where
  role σ hσ := by cases hσ
  live _ σ hσ := by cases hσ

/-- The supervise task that a `start()` creates is the one that `_supervise_task` holds, and it is
ready. -/
theorem created {σ : ℕ} (hcreates : Creates w e .supervise) (hstep : step cfg w e = some w')
    (hσ : σ ∈ w'.superviseTask) : w'.body σ = .supervise 0 .ready := by
  cases hcreates with
  | supervise hreturns hb =>
    obtain ⟨conns, -, rfl⟩ := started_of_returns hb hreturns hstep
    obtain ⟨htask, hbody⟩ := started_superviseTask cfg { w with conns := conns } _
    obtain rfl := Option.some.inj (hσ.symm.trans htask)
    exact hbody

/-- Every step that ends no supervise task of a running client keeps the invariant. -/
theorem step (h : Supervised w) (hsound : Sound cfg w) (hok : Tends cfg w e)
    (hstep : step cfg w e = some w') : Supervised w' := by
  have hmoves := step_moves hsound.linked hstep
  constructor
  · intro σ hσ
    rcases hmoves.superviseTask with hsame | hcreates
    · obtain ⟨hlt, hrole⟩ := h.role σ (hsame ▸ hσ)
      refine ⟨hlt.trans_le hmoves.tasks_length, ?_⟩
      rcases hmoves.role σ with hdone | hrole' | ⟨hle, -⟩
      · exact .inr hdone
      · rw [hrole']
        exact hrole
      · omega
    · have hb := created hcreates hstep hσ
      exact ⟨World.lt_of_body_ne (by simp [hb]), .inl (by rw [hb]; rfl)⟩
  · intro hrun' σ hσ
    have hnew (hcreates : Creates w e .supervise) : w'.alive σ = true := by
      rw [World.alive_iff, created hcreates hstep hσ]
      simp
    rcases hmoves.superviseTask with hsame | hcreates
    swap
    · exact .inl (hnew hcreates)
    have hσ₀ : w.superviseTask = some σ := hsame ▸ hσ
    obtain ⟨hlt, hrole⟩ := h.role σ hσ₀
    by_cases hrun : w.running = true
    · have hkeeps (halive : w.alive σ = true) : w'.alive σ = true := by
        rw [World.alive_iff] at halive ⊢
        by_cases hact : Acts w e σ
        · obtain ⟨a, pc, hb⟩ := Body.role_eq_supervise.mp
            (hrole.resolve_right (fun hdone => halive (Body.role_eq_done.mp hdone)))
          exact (Turns.of_acts hsound hb hact hstep).alive hok hσ₀ hlt hrun hrun'
        · rwa [hmoves.body_of_not_acts hact halive]
      rcases h.live hrun σ hσ₀ with halive | ⟨τ, c, hstarts⟩
      · exact .inl (hkeeps halive)
      · obtain ⟨stage, hb⟩ := Body.starts_eq_some.mp hstarts
        have hlt' : τ < w.tasks.length := World.lt_of_body_ne (by simp [hb])
        by_cases hact : Acts w e τ
        · cases Starts.of_acts hsound hb hact hstep with
          | goes =>
            exact .inr ⟨τ, c, by simp [World.body, hlt', Body.starts]⟩
          | returns hreturns => exact .inl (hnew (.supervise hreturns hb))
          | fails hfails =>
            have htask := task_of_acts hsound.linked hstep hact hlt' (by rw [hb]; rfl)
            exact .inl (hkeeps (hok.starts τ htask hfails hrun σ hσ₀))
        · refine .inr ⟨τ, c, ?_⟩
          rw [hmoves.body_of_not_acts hact (by simp [hb]), hstarts]
    · have he : e = .start := (hmoves.running hrun').resolve_left hrun
      subst he
      have hw : w.beginStart = w' := Option.some.inj hstep
      rw [World.beginStart, if_neg hrun] at hw
      refine .inr ⟨w.tasks.length, w.conns.length, ?_⟩
      rw [← hw, World.body_spawn_self]
      rfl

end Supervised

/-! ## Policies that answer as they please -/

/-- The client while its reconnect policy, if it has one, answers in a given way. -/
def Config.answering (cfg : Config) (answers : ℕ → Policy) : Config :=
  cfg.withPolicy (cfg.reconnect.map fun _ => answers)

/-- A step of the client in which the policy answers as the label says: a policy may keep a state,
look at a clock or draw lots, so that it need not answer alike each time. -/
def answerStep (cfg : Config) (w : World) (l : Event × (ℕ → Policy)) : Option World :=
  step (cfg.answering l.2) w l.1

/-- What is sound does not depend on the policy. -/
theorem Sound.answering (h : Sound cfg w) (answers : ℕ → Policy) :
    Sound (cfg.answering answers) w := ⟨h.linked, h.rpc, h.attached⟩

/-- Every state of every run is sound, however the policy answers. -/
theorem sound_of_answers {ok : World → Event × (ℕ → Policy) → Prop}
    {ls : List (Event × (ℕ → Policy))}
    (hrun : Transition.Run (answerStep cfg) ok World.init ls w) : Sound cfg w := by
  apply hrun.invariant (.init cfg)
  intro t l v hsound _ hstep
  have hsound' := hsound.answering l.2
  have hnext := hsound'.moves (step_moves hsound'.linked hstep)
  exact ⟨hnext.linked, hnext.rpc, hnext.attached⟩

/-- In every run of steps that end no supervise task of a client that runs on, the supervise task
of the last successful `start()` has ended only if the client does not run and the shutdown event
is set, unless another `start()` is under way. The policy may answer differently at every step. -/
theorem supervisor_announced {ls : List (Event × (ℕ → Policy))}
    (hrun : Transition.Run (answerStep cfg) (fun w l => Tends (cfg.answering l.2) w l.1) World.init
      ls w)
    {σ : ℕ} (htask : w.superviseTask = some σ) (hended : w.alive σ = false)
    (hidle : ∀ τ, (w.body τ).starts = none) : w.running = false ∧ w.shutdown = true := by
  have hinv : Supervised w ∧ ShutDown w := by
    apply hrun.invariant_of (fun h => sound_of_answers h) ⟨.init, .init⟩
    rintro t l v hsound - ⟨hsupervised, hshut⟩ hok hstep
    have hsound' := hsound.answering l.2
    exact ⟨hsupervised.step hsound' hok hstep, hshut.step hsound'.linked hstep⟩
  obtain ⟨hsupervised, hshut⟩ := hinv
  have hstopped : w.running = false := by
    by_contra hne
    rcases hsupervised.live (by simpa using hne) σ htask with halive | ⟨τ, c, hstarts⟩
    · simp [hended] at halive
    · simp [hidle τ] at hstarts
  exact ⟨hstopped, hshut.event (hshut.connected (by simp [htask])) hstopped⟩

/-- Events at each of which the policy gives the same answer. -/
def answered (policy : Policy) (es : List Event) : List (Event × (ℕ → Policy)) :=
  es.map fun e => (e, fun _ => policy)

/-- A policy that waits after the first drop and gives up after the second one. -/
def givesUpLater : List (Event × (ℕ → Policy)) :=
  answered (.wait 1)
      (startEvents ++ [.sockClosed 0 true, .socketEnd 1, .tick 1, .wake 1] ++ openEvents 1 1) ++
    answered .giveUp [.sockClosed 1 true, .socketEnd 1]

/-- The client gives up after the second drop, and announces it. -/
theorem supervisor_announced_givingUp :
    ∃ w, Transition.Run (answerStep (.sample .kraken none))
        (fun w l => Tends ((Config.sample .kraken none).answering l.2) w l.1) World.init
        givesUpLater w ∧
      w.superviseTask = some 1 ∧ w.alive 1 = false ∧ w.running = false ∧ w.shutdown = true := by
  obtain ⟨w, hrun, htask, hended, hlength, hidle⟩ :
      ∃ w, Transition.Run (answerStep (.sample .kraken none))
          (fun w l => Tends ((Config.sample .kraken none).answering l.2) w l.1) World.init
          givesUpLater w ∧
        w.superviseTask = some 1 ∧ w.alive 1 = false ∧ w.tasks.length = 2 ∧
        ∀ τ < 2, (w.body τ).starts = none :=
    Transition.Run.exists_of_exec (by decide +kernel)
  have hnone : ∀ τ, (w.body τ).starts = none := by
    intro τ
    by_cases hlt : τ < 2
    · exact hidle τ hlt
    · have hb : w.body τ = .finished := by
        by_contra hne
        have := World.lt_of_body_ne hne
        omega
      rw [hb]
      rfl
  exact ⟨w, hrun, htask, hended, supervisor_announced hrun htask hended hnone⟩

/-- The supervise task of a client whose policy raises ends unannounced: the client runs on and
is not shut down. -/
theorem policy_error_unannounced :
    ∃ w, Transition.Run
        (step { Config.sample .kraken none with reconnect := some fun _ => .raises })
        Transition.always World.init (startEvents ++ [.sockClosed 0 true, .socketEnd 1]) w ∧
      w.superviseTask = some 1 ∧ w.alive 1 = false ∧ (∀ τ < w.tasks.length,
        (w.body τ).starts = none) ∧ w.running = true ∧ w.shutdown = false :=
  Transition.Run.exists_of_exec (by decide +kernel)

end ProxyClient.Websocket
