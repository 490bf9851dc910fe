import ProxyClient.Websocket.Lifecycle

/-!
# Generations of background tasks

Each successful `start()` creates a supervise task and, if it is configured, a heartbeat task.
Both end with the client, but the heartbeat task sees that only when it wakes, and a `start()`
that was stopped while it was connecting goes on and creates its tasks. The tasks of an older
`start()` can therefore outlive it into the session of a newer one.
-/

namespace ProxyClient.Websocket

open Transition

variable {cfg : Config} {w w' : World} {e : Event} {es : List Event} {τ σ c n : ℕ}

/-- The task of the `start()` that begins in a step. On a running client it raises at once. -/
def beginsStart (w : World) (e : Event) : Option ℕ :=
  if e = .start ∧ w.running = false then some w.tasks.length else none

/-- The `start()` whose `open()` returns in a step, and the first task that it creates. -/
def createsTasks (w : World) (e : Event) : Option (ℕ × ℕ) :=
  match e.task with
  | some τ =>
    if ∃ c ∈ (w.body τ).starts, OpenReturns w τ c e then some (τ, w.tasks.length) else none
  | none => none

/-- The most recent `start()` of a run that began on a client that did not run. -/
def latestStart (cfg : Config) (es : List Event) : Option ℕ :=
  (outputs (step cfg) beginsStart World.init es).getLast?

/-- Which `start()` created which tasks in a run. -/
def creations (cfg : Config) (es : List Event) : List (ℕ × ℕ) :=
  outputs (step cfg) createsTasks World.init es

/-- The background tasks belong to one generation, that of the most recent `start()`. -/
structure OneGeneration (cfg : Config) (es : List Event) (w : World) : Prop where
  /-- At most one supervise task is live. -/
  supervise : ∀ σ σ', (w.body σ).role = .supervise → (w.body σ').role = .supervise → σ = σ'
  /-- At most one heartbeat task is live. -/
  heartbeat : ∀ η η', (w.body η).role = .heartbeat → (w.body η').role = .heartbeat → η = η'
  /-- A live supervise task is the first task that the most recent `start()` created. -/
  supervised : ∀ σ, (w.body σ).role = .supervise →
    ∃ τ, latestStart cfg es = some τ ∧ (τ, σ) ∈ creations cfg es
  /-- A live heartbeat task is the second one. -/
  beats : ∀ η, (w.body η).role = .heartbeat →
    ∃ τ n, latestStart cfg es = some τ ∧ (τ, n) ∈ creations cfg es ∧ η = n + 1

/-- A step that mixes no generations of background tasks. -/
structure Succeeds (w : World) (e : Event) : Prop where
  /-- A `start()` begins after the background tasks of the earlier ones have ended. -/
  start : e = .start → w.running = false → ∀ τ < w.tasks.length,
    (w.body τ).role ≠ .supervise ∧ (w.body τ).role ≠ .heartbeat
  /-- When the `open()` of a `start()` returns, no connection was built after its own. -/
  returns : ∀ τ ∈ e.task, ∀ c ∈ (w.body τ).starts, OpenReturns w τ c e → c + 1 = w.conns.length

instance (w : World) (e : Event) : Decidable (Succeeds w e) :=
  decidable_of_iff
    ((e = .start → w.running = false → ∀ τ < w.tasks.length,
        (w.body τ).role ≠ .supervise ∧ (w.body τ).role ≠ .heartbeat) ∧
      (∀ τ ∈ e.task, ∀ c ∈ (w.body τ).starts, OpenReturns w τ c e → c + 1 = w.conns.length))
    ⟨fun ⟨hstart, hreturns⟩ => ⟨hstart, hreturns⟩, fun h => ⟨h.start, h.returns⟩⟩

/-- A `start()` under way on the newest connection is the most recent one, and the tasks of the
earlier ones have ended. -/
structure Awaits (cfg : Config) (es : List Event) (w : World) : Prop where
  bound : ∀ τ c, (w.body τ).starts = some c → c < w.conns.length
  unique : ∀ τ τ' c, (w.body τ).starts = some c → (w.body τ').starts = some c → τ = τ'
  latest : ∀ τ c, (w.body τ).starts = some c → c + 1 = w.conns.length →
    latestStart cfg es = some τ
  alone : ∀ τ c, (w.body τ).starts = some c → c + 1 = w.conns.length → ∀ σ,
    (w.body σ).role ≠ .supervise ∧ (w.body σ).role ≠ .heartbeat

/-- A step that begins a `start()` makes it the most recent one. -/
theorem latestStart_snoc (hes : Run (step cfg) Succeeds World.init es w)
    (h : step cfg w e = some w') : latestStart cfg (es ++ [e]) =
      ((beginsStart w e).toList.getLast?).or (latestStart cfg es) := by
  rw [latestStart, hes.outputs_snoc h, List.getLast?_append]
  rfl

/-- Other steps leave the most recent `start()` as it was. -/
theorem latestStart_of_ne (hes : Run (step cfg) Succeeds World.init es w)
    (h : step cfg w e = some w') (hne : ¬(e = .start ∧ w.running = false)) :
    latestStart cfg (es ++ [e]) = latestStart cfg es := by
  rw [latestStart_snoc hes h, beginsStart, if_neg hne]
  rfl

/-- A creation is remembered, and a step adds the one that it makes. -/
theorem mem_creations_snoc (hes : Run (step cfg) Succeeds World.init es w)
    (h : step cfg w e = some w') {p : ℕ × ℕ}
    (hp : p ∈ creations cfg es ∨ createsTasks w e = some p) :
    p ∈ creations cfg (es ++ [e]) := by
  rw [creations, hes.outputs_snoc h, List.mem_append]
  exact hp.imp id (fun hcreates => by simp [hcreates])

/-- A background task was live before a step, or the `open()` of a `start()` returns in it. -/
theorem role_of_step (hsound : Sound cfg w) (h : step cfg w e = some w')
    (hrole : (w'.body σ).role = .supervise ∨ (w'.body σ).role = .heartbeat) :
    (w.body σ).role = (w'.body σ).role ∨
      ∃ τ c stage, OpenReturns w τ c e ∧ w.body τ = .start c stage := by
  rcases (step_moves hsound.linked h).role σ with hdone | hsame | ⟨-, hcreates⟩
  · rw [hdone] at hrole
    simp at hrole
  · exact .inl hsame.symm
  · rcases hrole with hrole | hrole
    · rw [hrole] at hcreates
      cases hcreates with
      | supervise hreturns hb => exact .inr ⟨_, _, _, hreturns, hb⟩
    · rw [hrole] at hcreates
      cases hcreates with
      | heartbeat hreturns hb => exact .inr ⟨_, _, _, hreturns, hb⟩

/-- A task that keeps its role does not become a background task. -/
theorem no_background {b b' : Body} (h : b.role ≠ .supervise ∧ b.role ≠ .heartbeat)
    (hkeeps : b'.role = .supervise ∨ b'.role = .heartbeat → b.role = b'.role) :
    b'.role ≠ .supervise ∧ b'.role ≠ .heartbeat := by
  constructor
  · intro hrole
    exact h.1 ((hkeeps (.inl hrole)).trans hrole)
  · intro hrole
    exact h.2 ((hkeeps (.inr hrole)).trans hrole)

namespace Awaits

/-- Before the first `start()` there is nothing to await. -/
theorem init : Awaits cfg [] World.init where
  bound τ c h := by simp [World.init, World.body, Body.starts] at h
  unique τ τ' c h := by simp [World.init, World.body, Body.starts] at h
  latest τ c h := by simp [World.init, World.body, Body.starts] at h
  alone τ c h := by simp [World.init, World.body, Body.starts] at h

/-- A `start()` begins, and becomes the most recent one. -/
theorem begin (h : Awaits cfg es w) (hes : Run (step cfg) Succeeds World.init es w)
    (hok : Succeeds w .start) (hrun : w.running = false) (hstep : step cfg w .start = some w') :
    Awaits cfg (es ++ [.start]) w' := by
  have hsound := sound_of_run hes
  have hmoves := step_moves hsound.linked hstep
  have hw : w.beginStart = w' := Option.some.inj hstep
  have hlength : w'.conns.length = w.conns.length + 1 := by
    rw [← hw, World.beginStart, if_neg (by simp [hrun])]
    simp
  have cases {τ c : ℕ} (hstarts : (w'.body τ).starts = some c) :
      ((w.body τ).starts = some c ∧ c < w.conns.length) ∨
        (τ = w.tasks.length ∧ c = w.conns.length) := by
    rcases starts_of_step hsound hstep hstarts with hold | ⟨-, -, hτ, hc⟩
    · exact .inl ⟨hold, h.bound τ c hold⟩
    · exact .inr ⟨hτ, hc⟩
  constructor
  · intro τ c hstarts
    rcases cases hstarts with ⟨-, hlt⟩ | ⟨-, rfl⟩ <;> omega
  · intro τ τ' c hstarts hstarts'
    rcases cases hstarts with ⟨hold, hlt⟩ | ⟨rfl, rfl⟩ <;>
      rcases cases hstarts' with ⟨hold', hlt'⟩ | ⟨rfl, hc⟩
    · exact h.unique τ τ' c hold hold'
    · omega
    · omega
    · rfl
  · intro τ c hstarts hc
    rcases cases hstarts with ⟨-, hlt⟩ | ⟨rfl, -⟩
    · omega
    · rw [latestStart_snoc hes hstep, beginsStart, if_pos ⟨rfl, hrun⟩]
      rfl
  · intro τ c _ _ σ
    have hnone : (w.body σ).role ≠ .supervise ∧ (w.body σ).role ≠ .heartbeat := by
      by_cases hlt : σ < w.tasks.length
      · exact hok.start rfl hrun σ hlt
      · have hfinished : w.body σ = .finished := by
          by_contra hne
          exact hlt (World.lt_of_body_ne hne)
        rw [hfinished]
        exact ⟨by decide, by decide⟩
    apply no_background hnone
    intro hrole
    rcases role_of_step hsound hstep hrole with hsame | ⟨_, _, _, hreturns, -⟩
    · exact hsame
    · cases hreturns.event

/-- A step that begins no `start()` leaves the generations as they were. -/
theorem keeps (h : Awaits cfg es w) (hes : Run (step cfg) Succeeds World.init es w)
    (hok : Succeeds w e) (hne : ¬(e = .start ∧ w.running = false))
    (hstep : step cfg w e = some w') : Awaits cfg (es ++ [e]) w' := by
  have hsound := sound_of_run hes
  have hmoves := step_moves hsound.linked hstep
  have hold {τ c : ℕ} (hstarts : (w'.body τ).starts = some c) : (w.body τ).starts = some c := by
    rcases starts_of_step hsound hstep hstarts with hold | ⟨he, hrun, -⟩
    · exact hold
    · exact absurd ⟨he, hrun⟩ hne
  have hbound {τ c : ℕ} (hstarts : (w'.body τ).starts = some c)
      (hc : c + 1 = w'.conns.length) : c + 1 = w.conns.length := by
    have hlt := h.bound τ c (hold hstarts)
    have hle := hmoves.conns_length
    omega
  constructor
  · intro τ c hstarts
    exact (h.bound τ c (hold hstarts)).trans_le hmoves.conns_length
  · intro τ τ' c hstarts hstarts'
    exact h.unique τ τ' c (hold hstarts) (hold hstarts')
  · intro τ c hstarts hc
    rw [latestStart_of_ne hes hstep hne]
    exact h.latest τ c (hold hstarts) (hbound hstarts hc)
  · intro τ c hstarts hc σ
    have hnone := h.alone τ c (hold hstarts) (hbound hstarts hc) σ
    apply no_background hnone
    intro hrole
    rcases role_of_step hsound hstep hrole with hsame | ⟨τ₁, c₁, stage, hreturns, hb⟩
    · exact hsame
    · -- the `start()` that returned was the one under way on the newest connection
      have hstarts₁ : (w.body τ₁).starts = some c₁ := by rw [hb]; rfl
      have hc₁ := hok.returns τ₁ (by rw [hreturns.event]; rfl) c₁ hstarts₁ hreturns
      have hcc : c₁ = c := by
        have := hbound hstarts hc
        omega
      obtain rfl := h.unique τ τ₁ c (hold hstarts) (hcc ▸ hstarts₁)
      obtain ⟨conns, -, rfl⟩ := started_of_returns hb hreturns hstep
      have hlt : τ < (World.tasks { w with conns := conns }).length :=
        World.lt_of_body_ne (τ := τ) (by
          have hb' : World.body { w with conns := conns } τ = .start c₁ stage := hb
          simp [hb'])
      rw [body_started_self cfg hlt] at hstarts
      cases hstarts

end Awaits

namespace OneGeneration

/-- No background task is live, so there is no generation to compare. -/
theorem of_none (h : ∀ σ, (w.body σ).role ≠ .supervise ∧ (w.body σ).role ≠ .heartbeat) :
    OneGeneration cfg es w where
  supervise σ _ hσ := absurd hσ (h σ).1
  heartbeat η _ hη := absurd hη (h η).2
  supervised σ hσ := absurd hσ (h σ).1
  beats η hη := absurd hη (h η).2

/-- A step that begins no `start()` and creates no tasks. -/
theorem keeps (h : OneGeneration cfg es w) (hes : Run (step cfg) Succeeds World.init es w)
    (hstep : step cfg w e = some w')
    (hlatest : latestStart cfg (es ++ [e]) = latestStart cfg es)
    (hold : ∀ σ, (w'.body σ).role = .supervise ∨ (w'.body σ).role = .heartbeat →
      (w.body σ).role = (w'.body σ).role) : OneGeneration cfg (es ++ [e]) w' where
  supervise σ σ' hσ hσ' :=
    h.supervise σ σ' ((hold σ (.inl hσ)).trans hσ) ((hold σ' (.inl hσ')).trans hσ')
  heartbeat η η' hη hη' :=
    h.heartbeat η η' ((hold η (.inr hη)).trans hη) ((hold η' (.inr hη')).trans hη')
  supervised σ hσ := by
    obtain ⟨τ, hτ, hmem⟩ := h.supervised σ ((hold σ (.inl hσ)).trans hσ)
    exact ⟨τ, hlatest.trans hτ, mem_creations_snoc hes hstep (.inl hmem)⟩
  beats η hη := by
    obtain ⟨τ, n, hτ, hmem, hn⟩ := h.beats η ((hold η (.inr hη)).trans hη)
    exact ⟨τ, n, hlatest.trans hτ, mem_creations_snoc hes hstep (.inl hmem), hn⟩

/-- The `open()` of the most recent `start()` returns, and the tasks of the earlier ones have
ended. -/
theorem create {stage : OpenStage} (hes : Run (step cfg) Succeeds World.init es w)
    (hstep : step cfg w e = some w') (hb : w.body τ = .start c stage)
    (hreturns : OpenReturns w τ c e) (hlatest : latestStart cfg es = some τ)
    (hnone : ∀ σ, (w.body σ).role ≠ .supervise ∧ (w.body σ).role ≠ .heartbeat) :
    OneGeneration cfg (es ++ [e]) w' := by
  have hne : ¬(e = .start ∧ w.running = false) := by
    rintro ⟨he, -⟩
    rw [hreturns.event] at he
    cases he
  have hlatest' : latestStart cfg (es ++ [e]) = some τ :=
    (latestStart_of_ne hes hstep hne).trans hlatest
  have hmem : (τ, w.tasks.length) ∈ creations cfg (es ++ [e]) := by
    refine mem_creations_snoc hes hstep (.inr ?_)
    have htask : e.task = some τ := by rw [hreturns.event]; rfl
    simp only [createsTasks, htask]
    exact if_pos ⟨c, by rw [hb]; rfl, hreturns⟩
  obtain ⟨conns, -, rfl⟩ := started_of_returns hb hreturns hstep
  have hlt : τ < (World.tasks { w with conns := conns }).length :=
    World.lt_of_body_ne (τ := τ) (by
      have hb' : World.body { w with conns := conns } τ = .start c stage := hb
      simp [hb'])
  have hsupervise {σ : ℕ}
      (hσ : ((World.started cfg { w with conns := conns } τ).body σ).role = .supervise) :
      σ = w.tasks.length := by
    rcases role_started hlt hσ (by decide) with ⟨hold, -⟩ | ⟨heq, -⟩ | ⟨-, hrole⟩
    · exact absurd hold (hnone σ).1
    · exact heq
    · cases hrole
  have hbeats {η : ℕ}
      (hη : ((World.started cfg { w with conns := conns } τ).body η).role = .heartbeat) :
      η = w.tasks.length + 1 := by
    rcases role_started hlt hη (by decide) with ⟨hold, -⟩ | ⟨-, hrole⟩ | ⟨heq, -⟩
    · exact absurd hold (hnone η).2
    · cases hrole
    · exact heq
  exact
    { supervise := fun σ σ' hσ hσ' => (hsupervise hσ).trans (hsupervise hσ').symm
      heartbeat := fun η η' hη hη' => (hbeats hη).trans (hbeats hη').symm
      supervised := fun σ hσ => ⟨τ, hlatest', hsupervise hσ ▸ hmem⟩
      beats := fun η hη => ⟨τ, _, hlatest', hmem, hbeats hη⟩ }

end OneGeneration

/-- The invariants of a run that mixes no generations. -/
theorem generations_of_run (hrun : Run (step cfg) Succeeds World.init es w) :
    Awaits cfg es w ∧ OneGeneration cfg es w := by
  induction hrun with
  | nil =>
    have hnone (σ : ℕ) : (World.init.body σ).role ≠ .supervise ∧
        (World.init.body σ).role ≠ .heartbeat := by simp [World.init, World.body, Body.role]
    exact ⟨.init, .of_none hnone⟩
  | @snoc es t u e hes hok hstep ih =>
    obtain ⟨hawaits, hone⟩ := ih
    by_cases hbegins : e = .start ∧ t.running = false
    · obtain ⟨rfl, hrun⟩ := hbegins
      have hawaits' := hawaits.begin hes hok hrun hstep
      have hu : t.beginStart = u := Option.some.inj hstep
      rw [World.beginStart, if_neg (by simp [hrun])] at hu
      have hstarts : (u.body t.tasks.length).starts = some t.conns.length := by
        rw [← hu, World.body_spawn_self]
        rfl
      exact ⟨hawaits', .of_none (hawaits'.alone _ _ hstarts (by rw [← hu]; simp))⟩
    · refine ⟨hawaits.keeps hes hok hbegins hstep, ?_⟩
      by_cases hcreates : ∃ τ c stage, OpenReturns t τ c e ∧ t.body τ = .start c stage
      · obtain ⟨τ, c, stage, hreturns, hb⟩ := hcreates
        have hstarts : (t.body τ).starts = some c := by rw [hb]; rfl
        have hc := hok.returns τ (by rw [hreturns.event]; rfl) c hstarts hreturns
        exact .create hes hstep hb hreturns (hawaits.latest τ c hstarts hc)
          (hawaits.alone τ c hstarts hc)
      · apply hone.keeps hes hstep (latestStart_of_ne hes hstep hbegins)
        intro σ hrole
        exact (role_of_step (sound_of_run hes) hstep hrole).resolve_right hcreates

/-- In every run of such steps, at most one supervise task and at most one heartbeat task are
live, and each was created by the most recent `start()`. -/
theorem one_generation (hrun : Run (step cfg) Succeeds World.init es w) : OneGeneration cfg es w :=
  (generations_of_run hrun).2

/-- A client with a heartbeat whose policy gives up after a drop. -/
def Config.givingUpBeating : Config :=
  { Config.sample .kraken (some 30) with reconnect := some fun _ => .giveUp }

/-- The connection drops and the client gives up, its heartbeat task ends, and the client is
started again. -/
def restartEvents : List Event :=
  startEvents ++ [.run 2, .sockClosed 0 true, .socketEnd 1, .tick 30, .wake 2, .start] ++
    openEvents 3 1 ++ [.run 4, .run 5]

/-- After a give-up and a restart, the tasks that are alive are those of the second `start()`. -/
theorem one_generation_restarted :
    ∃ w, Run (step .givingUpBeating) Succeeds World.init restartEvents w ∧
      (w.body 4).role = .supervise ∧ (w.body 5).role = .heartbeat ∧
      OneGeneration .givingUpBeating restartEvents w := by
  obtain ⟨w, hrun, hsupervise, hheartbeat⟩ :
      ∃ w, Run (step .givingUpBeating) Succeeds World.init restartEvents w ∧
        (w.body 4).role = .supervise ∧ (w.body 5).role = .heartbeat :=
    Run.exists_of_exec (by decide +kernel)
  exact ⟨w, hrun, hsupervise, hheartbeat, one_generation hrun⟩

/-- The connection drops and the client gives up, and the client is started again before its
heartbeat task has woken. -/
def quickRestartEvents : List Event :=
  startEvents ++ [.run 2, .sockClosed 0 true, .socketEnd 1, .start] ++ openEvents 3 1 ++
    [.run 4, .run 5, .tick 30, .wake 2]

/-- The heartbeat task of the first `start()` pings on in the session of the second one. -/
theorem old_heartbeat_survives :
    ∃ w, Run (step .givingUpBeating) always World.init quickRestartEvents w ∧
      (w.body 2).role = .heartbeat ∧ (w.body 5).role = .heartbeat ∧
      latestStart .givingUpBeating quickRestartEvents = some 3 ∧
      creations .givingUpBeating quickRestartEvents = [(0, 1), (3, 4)] :=
  Run.exists_of_exec (by decide +kernel)

end ProxyClient.Websocket
