import ProxyClient.Websocket.Lifecycle
import ProxyClient.Websocket.Phases

/-!
# One handshake for each connection

A dropped connection is discarded and a fresh one built for the next attempt. Every connection
is opened by one task, its socket is connected at most once, and the handshake frame is the
first frame on it and the only one of its kind. This rests on where a task is inside `open()`:
no step takes it back to `websockets.connect`.
-/

namespace ProxyClient.Websocket

open Transition

variable {cfg : Config} {w₀ w w' : World} {e : Event} {τ c : ℕ} {stage : OpenStage}

/-! ## Tasks that leave `open()` -/

/-- The connection that a coroutine opens, and the stage it is at. -/
def Body.opening : Body → Option (ℕ × OpenStage)
  | .supervise _ (.opening c stage) => some (c, stage)
  | .start c stage => some (c, stage)
  | _ => none

/-- What a task is opening is read off its coroutine. -/
theorem World.opening?_eq (w : World) (τ : ℕ) : w.opening? τ = (w.body τ).opening := rfl

/-- The only connection that a task can be opening is this one. -/
def World.OpensOnly (w : World) (τ n : ℕ) : Prop :=
  ∀ c stage, w.opening? τ = some (c, stage) → c = n

namespace World.OpensOnly

/-- A task that goes on to open the connection `n`, or to open none. -/
theorem setBody {n : ℕ} {b : Body} (hb : ∀ c stage, b.opening = some (c, stage) → c = n) :
    (w.setBody τ b).OpensOnly τ n := by
  intro c stage h
  rw [World.opening?_eq] at h
  by_cases hlt : τ < w.tasks.length
  · rw [World.body_setBody_self b hlt] at h
    exact hb c stage h
  · have hfinished : (w.setBody τ b).body τ = .finished := by
      by_contra hne
      exact hlt (by simpa using World.lt_of_body_ne hne)
    rw [hfinished] at h
    cases h

/-- When `_pump` has returned, a reconnect without a delay opens the connection that comes next. -/
theorem pumpReturned (cfg : Config) (w : World) (σ a : ℕ) (exc : Option Exc) :
    (w.pumpReturned cfg σ a exc).OpensOnly σ w.conns.length := by
  unfold World.pumpReturned
  split
  · simp only
    split
    · exact setBody nofun
    · exact setBody nofun
    · split
      · exact setBody nofun
      · apply setBody
        intro c stage h
        exact (Prod.mk.inj (Option.some.inj h)).1.symm
  · exact setBody nofun

/-- So it does when the pump returns at once, with no open connection to read. -/
theorem beginPump (cfg : Config) (w : World) (σ a : ℕ) :
    (w.beginPump cfg σ a).OpensOnly σ w.conns.length := by
  unfold World.beginPump World.read
  split
  · split
    · exact pumpReturned cfg w σ a _
    · split
      · split
        · exact pumpReturned cfg w σ a _
        · exact setBody nofun
      · exact pumpReturned cfg w σ a _
  · exact setBody nofun

/-- A reconnect whose handshake failed goes on to the pump, and gets no further than that. -/
theorem openFailed (cfg : Config) (w : World) (τ : ℕ) :
    (w.openFailed cfg τ).OpensOnly τ w.conns.length := by
  unfold World.openFailed
  split
  · exact beginPump cfg w τ _
  · exact setBody nofun

/-- A replay opens no connection, and the pump that follows it at most the next one. -/
theorem replayNext (cfg : Config) (w : World) (σ a : ℕ) (entries : List Entry) :
    (w.replayNext cfg σ a entries).OpensOnly σ w.conns.length := by
  unfold World.replayNext
  split
  · exact beginPump cfg w σ a
  · split
    · exact setBody nofun
    · exact setBody nofun

/-- Nor does the replay that begins once the handshake is accepted. -/
theorem opened (cfg : Config) (c : ℕ) (hlt : τ < w.tasks.length) :
    (w.opened cfg τ c).OpensOnly τ w.conns.length := by
  unfold World.opened
  simp only
  split
  · simpa using replayNext cfg (w.modifyConn c _) τ _ w.subscriptions
  · intro c' stage h
    rw [World.opening?_eq, body_started_self cfg (by simpa using hlt)] at h
    cases h

end World.OpensOnly

/-- A task that is suspended at another stage of `open()`. -/
theorem opening?_setStage {stage' : OpenStage} (hopening : w.opening? τ = some (c, stage))
    (hlt : τ < w.tasks.length) : (w.setStage τ stage').opening? τ = some (c, stage') := by
  rw [World.opening?_eq] at hopening ⊢
  unfold World.setStage
  cases hb : w.body τ with
  | supervise attempt pc =>
    rw [hb] at hopening
    cases pc <;> cases hopening
    rw [World.body_setBody_self _ hlt]
    rfl
  | start c' stage₀ =>
    rw [hb] at hopening
    cases hopening
    rw [World.body_setBody_self _ hlt]
    rfl
  | _ =>
    rw [hb] at hopening
    cases hopening

/-- No step of `open()` leads to `websockets.connect` of the same connection. -/
theorem openStep_ne_connecting (hlt : c < w.conns.length)
    (hopening : w.opening? τ = some (c, stage)) (htask : e.task = some τ)
    (h : w.openStep cfg τ e = some w') : w'.opening? τ ≠ some (c, .connecting) := by
  have hτ : τ < w.tasks.length := by
    apply World.lt_of_body_ne
    intro hfinished
    rw [World.opening?_eq, hfinished] at hopening
    cases hopening
  intro hconnecting
  cases opens_of_openStep hopening htask h with
  | connected =>
    have hopening' : (w.modifyConn c (fun conn => conn.connect.write .auth)).opening? τ =
      some (c, stage) := hopening
    rw [opening?_setStage hopening' hτ] at hconnecting
    cases hconnecting
  | sent =>
    rw [opening?_setStage hopening hτ] at hconnecting
    cases hconnecting
  | raised =>
    have hc := World.OpensOnly.openFailed cfg w τ c _ hconnecting
    omega
  | refused =>
    have hc := World.OpensOnly.openFailed cfg _ τ c _ hconnecting
    rw [World.modifyConn_conns, List.length_modify] at hc
    omega
  | accepted =>
    have hc := World.OpensOnly.opened cfg c (by simpa using hτ) c _ hconnecting
    rw [World.modifyConn_conns, List.length_modify] at hc
    omega

/-- A step that resumes a task inside `open()` does not lead to `websockets.connect` of the same
connection. -/
theorem step_ne_connecting (hlt : c < w.conns.length)
    (hopening : w.opening? τ = some (c, stage)) (htask : e.task = some τ)
    (h : step cfg w e = some w') : w'.opening? τ ≠ some (c, .connecting) := by
  have finished (v : World) : (v.finish τ).opening? τ ≠ some (c, .connecting) := by
    intro hconnecting
    have hc := World.OpensOnly.setBody (n := c + 1) (b := .finished) nofun c _ hconnecting
    omega
  have hb : (∃ a, w.body τ = .supervise a (.opening c stage)) ∨ w.body τ = .start c stage := by
    rw [World.opening?_eq] at hopening
    unfold Body.opening at hopening
    split at hopening
    · rename_i a _ _ hb
      cases hopening
      exact .inl ⟨a, hb⟩
    · rename_i hb
      cases hopening
      exact .inr hb
    · cases hopening
  cases e <;> cases htask
  case connected | connectFailed | authSent | authSendFailed | authReply | authTimeout
      | authClosed => exact openStep_ne_connecting hlt hopening rfl (step_guarded h)
  case cancelStart =>
    simp only [step] at h
    split at h
    · obtain rfl := Option.some.inj h
      exact finished w
    · cases h
  case deliverCancel =>
    simp only [step] at h
    split at h
    · rcases hb with ⟨a, hb⟩ | hb
      · simp only [World.cancelStep, hb, Option.some.injEq] at h
        exact h ▸ finished w
      · simp [World.cancelStep, hb] at h
    · cases h
  all_goals
    rcases hb with ⟨a, hb⟩ | hb <;>
      simp [step, World.runStep, World.recvStep, World.socketEndStep, World.callbackCallStep,
        World.callbackEndStep, World.wakeStep, World.closeDoneStep, World.stopStep, hb] at h

/-! ## Connections -/

/-- A connection that was not connected, and over which nothing was sent. -/
structure Connection.Blank (conn : Connection) : Prop where
  attached : conn.attached = false
  sent : conn.sent = []

/-- The frames sent over a connection begin with its only handshake frame. -/
def Connection.Greeted (conn : Connection) : Prop :=
  ∃ rest, conn.sent = .auth :: rest ∧ .auth ∉ rest

/-- Frames other than that of the handshake may follow it. -/
theorem Connection.Greeted.write {conn : Connection} (h : conn.Greeted) {frame : Sent}
    (hframe : frame ≠ .auth) : (conn.write frame).Greeted := by
  unfold Connection.write
  split
  · obtain ⟨rest, hrest, hmem⟩ := h
    refine ⟨rest ++ [frame], by simp [hrest], ?_⟩
    simp [hmem, hframe.symm]
  · exact h

/-- The socket of a blank connection is connected. -/
theorem Connection.Blank.connect {conn : Connection} (h : conn.Blank) :
    (conn.connect.write .auth).Greeted :=
  ⟨[], by simp [Connection.write, Connection.connect, h.sent], by simp⟩

/-- What the connections and the tasks that open them have in common. -/
structure Openings (w : World) : Prop where
  bound : ∀ τ c stage, w.opening? τ = some (c, stage) → c < w.conns.length
  /-- No two tasks open one connection. -/
  alone : ∀ τ τ' c stage stage', w.opening? τ = some (c, stage) →
    w.opening? τ' = some (c, stage') → τ = τ'
  /-- A connection that is to be connected is blank. -/
  connecting : ∀ τ c conn, w.opening? τ = some (c, .connecting) → w.conns[c]? = some conn →
    conn.Blank
  greeted : ∀ (c : ℕ) conn, w.conns[c]? = some conn → conn.Blank ∨ conn.Greeted

/-- A frame of a call or of the application goes to a connection that is greeted. -/
theorem Connection.Greeted.of_sendConn {conn : Connection} (hsend : w.sendConn = some c)
    (hconn : w.conns[c]? = some conn) (h : conn.Blank ∨ conn.Greeted) : conn.Greeted := by
  have hopen : w.isOpen c = true := (Option.filter_eq_some_iff.mp hsend).2
  rcases h with hblank | hgreeted
  · simp [World.isOpen, hconn, Connection.isOpen, hblank.attached] at hopen
  · exact hgreeted

/-- An alteration that neither connects the socket nor sends a message leaves the frames sent
alone and attaches nothing. -/
theorem Alters.sent_cases {f : Connection → Connection} (h : Alters w₀ e w c f)
    (conn : Connection) :
    ((f conn).sent = conn.sent ∧ ((f conn).attached = true → conn.attached = true)) ∨
      (∃ τ, e = .connected τ ∧ w = w₀ ∧ w.opening? τ = some (c, .connecting) ∧
        f conn = conn.connect.write .auth) ∨
      ∃ message, e = .send message ∧ w = w₀ ∧ w.sendConn = some c ∧
        f conn = conn.write (.message message) := by
  cases h with
  | message he hw hsend => exact .inr (.inr ⟨_, he, hw, hsend, rfl⟩)
  | connect he hw hopening => exact .inr (.inl ⟨_, he, hw, hopening, rfl⟩)
  | beginClose =>
    unfold Connection.beginClose
    split
    · exact .inl ⟨rfl, id⟩
    · exact .inl ⟨rfl, id⟩
  | endClose =>
    unfold Connection.endClose
    split
    · exact .inl ⟨rfl, nofun⟩
    · exact .inl ⟨rfl, nofun⟩
  | detach => exact .inl ⟨rfl, nofun⟩
  | _ => exact .inl ⟨rfl, id⟩

/-- The connection whose socket a label connects, as `connect()` returns to `open()`. -/
def Connects (w : World) (e : Event) (c : ℕ) : Prop :=
  ∃ τ, e = .connected τ ∧ w.opening? τ = some (c, .connecting)

/-- A connection after a move is blank if it was before and is not connected in the step. -/
theorem Move.blank (h : Move cfg w₀ e w w') (hnot : ¬Connects w₀ e c)
    (hblank : ∀ conn, w.conns[c]? = some conn → conn.Blank) {conn : Connection}
    (hconn : w'.conns[c]? = some conn) : conn.Blank := by
  have refuses {conn : Connection} (hsend : w.sendConn = some c) (hconn : w.conns[c]? = some conn) :
      False := by
    have hopen : w.isOpen c = true := (Option.filter_eq_some_iff.mp hsend).2
    simp [World.isOpen, hconn, Connection.isOpen, (hblank conn hconn).attached] at hopen
  rcases h.conn_cases hconn with hold | ⟨f, conn₀, halters, hold, rfl⟩ |
    ⟨k, frame, conn₀, hold, rfl, hsend, -⟩ | ⟨-, rfl⟩
  · exact hblank conn hold
  · have hblank₀ := hblank conn₀ hold
    rcases halters.sent_cases conn₀ with ⟨hsent, hattached⟩ | ⟨τ, he, rfl, hopening, -⟩ |
      ⟨message, -, -, hsend, -⟩
    · refine ⟨?_, hsent.trans hblank₀.sent⟩
      by_contra hne
      have htrue := hattached (by simpa using hne)
      rw [hblank₀.attached] at htrue
      cases htrue
    · exact absurd ⟨τ, he, hopening⟩ hnot
    · exact absurd hold (fun hold => refuses hsend hold)
  · exact absurd hold (fun hold => refuses hsend hold)
  · exact ⟨rfl, rfl⟩

/-- A connection that nobody connects stays blank throughout a step. -/
theorem Moves.blank (h : Moves cfg w₀ e w₀ w) (hnot : ¬Connects w₀ e c)
    (hblank : ∀ conn, w₀.conns[c]? = some conn → conn.Blank) :
    ∀ conn, w.conns[c]? = some conn → conn.Blank := by
  induction h with
  | refl => exact hblank
  | tail _ hlast ih => exact fun conn hconn => hlast.blank hnot ih hconn

/-- A connection after a move is blank or greeted if the connections were before, and those to be
connected in the step were blank. -/
theorem Move.greeted (h : Move cfg w₀ e w w') (hopenings₀ : Openings w₀)
    (hgreeted : ∀ (c : ℕ) conn, w.conns[c]? = some conn → conn.Blank ∨ conn.Greeted)
    {conn : Connection} (hconn : w'.conns[c]? = some conn) : conn.Blank ∨ conn.Greeted := by
  rcases h.conn_cases hconn with hold | ⟨f, conn₀, halters, hold, rfl⟩ |
    ⟨k, frame, conn₀, hold, rfl, hsend, -⟩ | ⟨-, rfl⟩
  · exact hgreeted c conn hold
  · rcases halters.sent_cases conn₀ with ⟨hsent, hattached⟩ | ⟨τ, he, rfl, hopening, hf⟩ |
      ⟨message, -, -, hsend, hf⟩
    · rcases hgreeted c conn₀ hold with hblank | hgreeted₀
      · refine .inl ⟨?_, hsent.trans hblank.sent⟩
        by_contra hne
        have htrue := hattached (by simpa using hne)
        rw [hblank.attached] at htrue
        cases htrue
      · right
        rw [Connection.Greeted, hsent]
        exact hgreeted₀
    · rw [hf]
      exact .inr (hopenings₀.connecting τ c conn₀ hopening hold).connect
    · rw [hf]
      exact .inr ((Connection.Greeted.of_sendConn hsend hold (hgreeted c conn₀ hold)).write
        (by simp))
  · exact .inr ((Connection.Greeted.of_sendConn hsend hold (hgreeted c conn₀ hold)).write
      (by simp))
  · exact .inl ⟨rfl, rfl⟩

/-- Throughout a step every connection is blank, or the first frame on it is the handshake. -/
theorem Moves.greeted (h : Moves cfg w₀ e w₀ w) (hopenings : Openings w₀) :
    ∀ (c : ℕ) conn, w.conns[c]? = some conn → conn.Blank ∨ conn.Greeted := by
  induction h with
  | refl => exact hopenings.greeted
  | tail _ hlast ih => exact fun c conn hconn => hlast.greeted hopenings ih hconn

/-- A task that goes on without a call opens what it was opening before. -/
theorem Goes.opening {b b' : Body} (h : Goes cfg w₀ e w τ b b')
    (hopening : b'.opening = some (c, stage)) : ∃ stage₀, b.opening = some (c, stage₀) := by
  cases h with
  | @reopen attempt c' stage₀ =>
    cases hopening
    exact ⟨stage₀, rfl⟩
  | @start c' stage₀ =>
    cases hopening
    exact ⟨stage₀, rfl⟩
  | _ => cases hopening

/-- A task that awaits a call is not inside `open()`. -/
theorem Calls.opening {k : ℕ} {call : Call} {b b' : Body} (h : Calls w₀ w τ k call b b') :
    b'.opening = none := by
  cases h <;> rfl

/-- Nor does it get there right after the call. -/
theorem Resumes.opening {k : ℕ} {outcome : Outcome} {b b' : Body}
    (h : Resumes τ k outcome b b') : b'.opening = none := by
  cases h <;> rfl

/-- A task that opens a connection after a move opened it before, or the move has built the
connection for it. -/
theorem Move.opening (h : Move cfg w₀ e w w') :
    (∀ τ c stage, w'.opening? τ = some (c, stage) → ∃ stage₀, w.opening? τ = some (c, stage₀)) ∨
      (w'.conns.length = w.conns.length + 1 ∧ ∃ τ₁, ∀ τ c stage,
        w'.opening? τ = some (c, stage) →
          (∃ stage₀, w.opening? τ = some (c, stage₀)) ∨ (τ = τ₁ ∧ c = w.conns.length)) := by
  have setBody {τ₁ : ℕ} {b : Body} {w₁ : World} (hsame : ∀ τ, w₁.body τ = w.body τ)
      (hb : ∀ c stage, b.opening = some (c, stage) →
        ∃ stage₀, w.opening? τ₁ = some (c, stage₀)) :
      ∀ τ c stage, (w₁.setBody τ₁ b).opening? τ = some (c, stage) →
        ∃ stage₀, w.opening? τ = some (c, stage₀) := by
    intro τ c stage hopening
    rw [World.opening?_eq] at hopening
    rcases World.body_setBody_cases (w := w₁) (τ := τ₁) (b := b) τ with ⟨rfl, hself, -⟩ | hold
    · rw [hself] at hopening
      exact hb c stage hopening
    · rw [hold, hsame] at hopening
      exact ⟨stage, hopening⟩
  have spawn {b : Body} {w₁ : World} (hsame : ∀ τ c stage, w₁.opening? τ = some (c, stage) →
        ∃ stage₀, w.opening? τ = some (c, stage₀)) (hb : b.opening = none) :
      ∀ τ c stage, (w₁.spawn b).opening? τ = some (c, stage) →
        ∃ stage₀, w.opening? τ = some (c, stage₀) := by
    intro τ c stage hopening
    rw [World.opening?_eq] at hopening
    rcases World.body_spawn_cases (w := w₁) (b := b) τ with ⟨-, hself⟩ | hold
    · rw [hself, hb] at hopening
      cases hopening
    · rw [hold] at hopening
      exact hsame τ c stage hopening
  cases h with
  | start =>
    refine .inr ⟨by simp, w.tasks.length, ?_⟩
    intro τ c stage hopening
    rw [World.opening?_eq] at hopening
    rcases World.body_spawn_cases (b := .start w.conns.length .connecting) τ with
      ⟨hτ, hself⟩ | hold
    · rw [hself] at hopening
      exact .inr ⟨hτ, (Prod.mk.inj (Option.some.inj hopening)).1.symm⟩
    · rw [hold] at hopening
      exact .inl ⟨stage, hopening⟩
  | @reconnect σ attempt attempt' pc =>
    refine .inr ⟨by simp [World.beginReconnect], σ, ?_⟩
    intro τ c stage hopening
    rw [World.opening?_eq] at hopening
    rcases World.body_setBody_cases
      (w := { w with conns := w.conns ++ [({} : Connection)], conn := some w.conns.length })
      (τ := σ) (b := .supervise attempt' (.opening w.conns.length .connecting)) τ with
      ⟨hτ, hself, -⟩ | hold
    · rw [World.beginReconnect, hself] at hopening
      exact .inr ⟨hτ, (Prod.mk.inj (Option.some.inj hopening)).1.symm⟩
    · rw [World.beginReconnect, hold] at hopening
      exact .inl ⟨stage, hopening⟩
  | @goto τ₁ b _ hgo =>
    exact .inl (setBody (fun _ => rfl) (fun _ _ hb => hgo.opening hb))
  | take => exact .inl (setBody (fun _ => rfl) (by simp [Body.opening]))
  | supervise =>
    refine .inl (spawn ?_ rfl)
    exact setBody (fun _ => rfl) (by simp [Body.opening])
  | heartbeat => exact .inl (spawn (fun _ _ stage h => ⟨stage, h⟩) rfl)
  | stop => exact .inl (spawn (fun _ _ stage h => ⟨stage, h⟩) rfl)
  | cancelTask τ₁ =>
    left
    intro τ c stage hopening
    rw [World.opening?_eq, World.body_requestCancel] at hopening
    exact ⟨stage, hopening⟩
  | call _ _ _ _ hcalls =>
    exact .inl (setBody (fun _ => rfl) (by simp [hcalls.opening]))
  | resume _ _ _ _ _ hresumes =>
    exact .inl (setBody (body_endCall cfg w _ _) (by simp [hresumes.opening]))
  | endCall =>
    left
    intro τ c stage hopening
    rw [World.opening?_eq, body_endCall] at hopening
    exact ⟨stage, hopening⟩
  | _ => exact .inl (fun _ _ stage h => ⟨stage, h⟩)

/-! ## Runs -/

/-- The connections of a step that builds none are those it began with. -/
theorem Moves.opening (h : Moves cfg w₀ e w₀ w) (hopenings : Openings w₀) :
    (∀ τ c stage, w.opening? τ = some (c, stage) → c < w.conns.length) ∧
      (∀ τ τ' c stage stage', w.opening? τ = some (c, stage) →
        w.opening? τ' = some (c, stage') → τ = τ') ∧
      (∀ τ c stage, w.opening? τ = some (c, stage) →
        (∃ stage₀, w₀.opening? τ = some (c, stage₀)) ∨ w₀.conns.length ≤ c) := by
  induction h with
  | refl => exact ⟨hopenings.bound, hopenings.alone, fun _ _ stage h => .inl ⟨stage, h⟩⟩
  | @tail w₁ w₂ hchain hlast ih =>
    obtain ⟨hbound, halone, hold⟩ := ih
    have hle : w₁.conns.length ≤ w₂.conns.length := Moves.conns_length (.single hlast)
    have hle₀ := Moves.conns_length hchain
    rcases hlast.opening with hsame | ⟨hlength, τ₁, hnew⟩
    · refine ⟨?_, ?_, ?_⟩
      · intro τ c stage h
        obtain ⟨stage₀, h₀⟩ := hsame τ c stage h
        exact (hbound τ c stage₀ h₀).trans_le hle
      · intro τ τ' c stage stage' h h'
        obtain ⟨stage₀, h₀⟩ := hsame τ c stage h
        obtain ⟨stage₀', h₀'⟩ := hsame τ' c stage' h'
        exact halone τ τ' c _ _ h₀ h₀'
      · intro τ c stage h
        obtain ⟨stage₀, h₀⟩ := hsame τ c stage h
        exact hold τ c stage₀ h₀
    · refine ⟨?_, ?_, ?_⟩
      · intro τ c stage h
        rcases hnew τ c stage h with ⟨stage₀, h₀⟩ | ⟨-, rfl⟩
        · exact (hbound τ c stage₀ h₀).trans_le hle
        · omega
      · intro τ τ' c stage stage' h h'
        rcases hnew τ c stage h with ⟨stage₀, h₀⟩ | ⟨hτ, hc⟩
        · have hlt := hbound τ c stage₀ h₀
          rcases hnew τ' c stage' h' with ⟨stage₀', h₀'⟩ | ⟨-, hc⟩
          · exact halone τ τ' c _ _ h₀ h₀'
          · omega
        · rcases hnew τ' c stage' h' with ⟨stage₀', h₀'⟩ | ⟨hτ', -⟩
          · have hlt := hbound τ' c stage₀' h₀'
            omega
          · rw [hτ, hτ']
      · intro τ c stage h
        rcases hnew τ c stage h with ⟨stage₀, h₀⟩ | ⟨-, rfl⟩
        · exact hold τ c stage₀ h₀
        · exact .inr hle₀

/-- A task inside `open()` is live and awaits no call. -/
theorem Body.of_opening (h : w.opening? τ = some (c, stage)) :
    w.body τ ≠ .finished ∧ (w.body τ).awaits τ = none := by
  rw [World.opening?_eq] at h
  unfold Body.opening at h
  split at h
  · rename_i hb
    simp [hb, Body.awaits]
  · rename_i hb
    simp [hb, Body.awaits]
  · cases h

/-- A task that is to connect a connection after a step was to do so before, or the step has
built the connection. -/
theorem connecting_of_step (hsound : Sound cfg w) (hopenings : Openings w)
    (h : step cfg w e = some w') (hconnecting : w'.opening? τ = some (c, .connecting)) :
    (w.opening? τ = some (c, .connecting) ∧ e.task ≠ some τ) ∨ w.conns.length ≤ c := by
  have hmoves := step_moves hsound.linked h
  rcases (hmoves.opening hopenings).2.2 τ c _ hconnecting with ⟨stage₀, hold⟩ | hnew
  · have hlt := hopenings.bound τ c stage₀ hold
    by_cases htask : e.task = some τ
    · exact absurd hconnecting (step_ne_connecting hlt hold htask h)
    · obtain ⟨hne, hawaits⟩ := Body.of_opening hold
      have hact : ¬Acts w e τ :=
        fun hact => htask (task_of_acts hsound.linked h hact (World.lt_of_body_ne hne) hawaits)
      rw [World.opening?_eq, hmoves.body_of_not_acts hact hne] at hconnecting
      exact .inl ⟨hconnecting, htask⟩
  · exact .inr hnew

/-- Every step keeps the connections in order: each is opened by one task at most. -/
theorem Openings.step (hopenings : Openings w) (hsound : Sound cfg w)
    (h : step cfg w e = some w') : Openings w' := by
  have hmoves := step_moves hsound.linked h
  obtain ⟨hbound, halone, -⟩ := hmoves.opening hopenings
  refine ⟨hbound, halone, ?_, ?_⟩
  · intro τ c conn hconnecting hconn
    have hblank : ∀ conn, w.conns[c]? = some conn → conn.Blank := by
      intro conn₀ hconn₀
      rcases connecting_of_step hsound hopenings h hconnecting with ⟨hold, -⟩ | hle
      · exact hopenings.connecting τ c conn₀ hold hconn₀
      · have hlt := (List.getElem?_eq_some_iff.mp hconn₀).1
        omega
    have hnot : ¬Connects w e c := by
      rintro ⟨τ', he, hopening⟩
      rcases connecting_of_step hsound hopenings h hconnecting with ⟨hold, htask⟩ | hle
      · obtain rfl := hopenings.alone τ τ' c _ _ hold hopening
        exact htask (by rw [he]; rfl)
      · have hlt := hopenings.bound τ' c _ hopening
        omega
    exact hmoves.blank hnot hblank conn hconn
  · exact hmoves.greeted hopenings

/-- There is nothing to open before the first `start()`. -/
theorem Openings.init : Openings World.init where
  bound _ _ _ h := by simp [World.init, World.opening?, World.body] at h
  alone _ _ _ _ _ h := by simp [World.init, World.opening?, World.body] at h
  connecting _ _ _ _ h := by simp [World.init] at h
  greeted _ _ h := by simp [World.init] at h

/-- In every state of every run the connections are in order. -/
theorem openings_of_run {ok : World → Event → Prop} {es : List Event}
    (hrun : Run (step cfg) ok World.init es w) : Openings w :=
  hrun.invariant_of (I := Sound cfg) sound_of_run .init
    (fun _ _ _ hsound _ hopenings _ h => hopenings.step hsound h)

/-! ## Who opens a connection, and how often -/

/-- The task whose `websockets.connect` for a connection an event lets return. -/
def connects (c : ℕ) (w : World) : Event → Option ℕ
  | .connected τ => if w.opening? τ = some (c, .connecting) then some τ else none
  | _ => none

/-- A task has been inside `open()` of a connection at some point of a run. Unlike
`World.opening?`, which is about the present, this stays true once the task has left `open()`. -/
def OpenedBy (cfg : Config) (es : List Event) (c τ : ℕ) : Prop :=
  ∃ es₁ t stage, es₁ <+: es ∧ Run (step cfg) always World.init es₁ t ∧
    t.opening? τ = some (c, stage)

/-- A task that opens a connection now is among those that have opened it. -/
theorem OpenedBy.of_opening {es : List Event} (hrun : Run (step cfg) always World.init es w)
    (hopening : w.opening? τ = some (c, stage)) : OpenedBy cfg es c τ :=
  ⟨es, w, stage, List.prefix_refl es, hrun, hopening⟩

/-- After one more step the tasks that have opened a connection are those of before and those that
open it now. -/
theorem OpenedBy.of_concat {es : List Event} (hrun : Run (step cfg) always World.init es w)
    (hstep : step cfg w e = some w') (h : OpenedBy cfg (es ++ [e]) c τ) :
    OpenedBy cfg es c τ ∨ ∃ stage, w'.opening? τ = some (c, stage) := by
  obtain ⟨es₁, t, stage, hprefix, hreach, hopening⟩ := h
  rcases List.prefix_concat_iff.mp hprefix with rfl | hshort
  · obtain rfl := (hrun.snoc trivial hstep).unique hreach
    exact .inr ⟨stage, hopening⟩
  · exact .inl ⟨es₁, t, stage, hshort, hreach, hopening⟩

/-- At the end of a run every connection that a task has opened is built, and no other task has
opened it or opens it. -/
theorem openedBy_of_run {es : List Event} (hrun : Run (step cfg) always World.init es w) :
    ∀ c τ, OpenedBy cfg es c τ →
      c < w.conns.length ∧ ∀ τ', OpenedBy cfg es c τ' → τ' = τ := by
  induction hrun with
  | nil =>
    rintro c τ ⟨es₁, t, stage, hprefix, hreach, hopening⟩
    obtain rfl := List.prefix_nil.mp hprefix
    have hinit : Run (step cfg) always World.init [] World.init := .nil
    obtain rfl := hinit.unique hreach
    simp [World.init, World.opening?, World.body] at hopening
  | @snoc es t u e hes _ hstep ih =>
    have hopenings := openings_of_run hes
    have hmoves := step_moves (sound_of_run hes).linked hstep
    obtain ⟨hbound, halone, hold⟩ := hmoves.opening hopenings
    -- who opens it now has opened it before, or the step has built the connection
    have now (c τ : ℕ) : OpenedBy cfg (es ++ [e]) c τ → OpenedBy cfg es c τ ∨
        (t.conns.length ≤ c ∧ ∃ stage, u.opening? τ = some (c, stage)) := by
      intro h
      rcases h.of_concat hes hstep with hbefore | ⟨stage, hopening⟩
      · exact .inl hbefore
      · rcases hold τ c stage hopening with ⟨stage₀, hopening₀⟩ | hnew
        · exact .inl (.of_opening hes hopening₀)
        · exact .inr ⟨hnew, stage, hopening⟩
    intro c τ h
    rcases now c τ h with hbefore | ⟨hnew, stage, hopening⟩
    · have hlt := (ih c τ hbefore).1
      refine ⟨hlt.trans_le hmoves.conns_length, ?_⟩
      intro τ' h'
      rcases now c τ' h' with hbefore' | ⟨hnew, -⟩
      · exact (ih c τ hbefore).2 τ' hbefore'
      · omega
    · refine ⟨hbound τ c stage hopening, ?_⟩
      intro τ' h'
      rcases now c τ' h' with hbefore' | ⟨-, stage', hopening'⟩
      · have hlt := (ih c τ' hbefore').1
        omega
      · exact halone τ' τ c stage' stage hopening' hopening

/-- `websockets.connect` has returned at most once for a connection, and where it has, no task is
waiting for it any more. -/
theorem connects_of_run {es : List Event} (hrun : Run (step cfg) always World.init es w) (c : ℕ) :
    outputs (step cfg) (connects c) World.init es = [] ∨
      ((outputs (step cfg) (connects c) World.init es).length = 1 ∧ c < w.conns.length ∧
        ∀ τ, w.opening? τ ≠ some (c, .connecting)) := by
  induction hrun with
  | nil => exact .inl rfl
  | @snoc es t u e hes _ hstep ih =>
    have hsound := sound_of_run hes
    have hopenings := openings_of_run hes
    have hle := (step_moves hsound.linked hstep).conns_length
    rw [hes.outputs_snoc hstep]
    cases hout : connects c t e with
    | none =>
      rw [Option.toList_none, List.append_nil]
      rcases ih with hnil | ⟨hone, hlt, hnot⟩
      · exact .inl hnil
      · refine .inr ⟨hone, hlt.trans_le hle, ?_⟩
        intro τ hconnecting
        rcases connecting_of_step hsound hopenings hstep hconnecting with ⟨hold, -⟩ | hnew
        · exact hnot τ hold
        · omega
    | some τ =>
      obtain ⟨rfl, hopening⟩ : e = .connected τ ∧ t.opening? τ = some (c, .connecting) := by
        unfold connects at hout
        split at hout
        · split at hout
          · obtain rfl := Option.some.inj hout
            exact ⟨rfl, by assumption⟩
          · cases hout
        · cases hout
      have hlt := hopenings.bound τ c _ hopening
      rcases ih with hnil | ⟨-, -, hnot⟩
      · refine .inr ⟨by simp [hnil], hlt.trans_le hle, ?_⟩
        intro τ' hconnecting
        rcases connecting_of_step hsound hopenings hstep hconnecting with ⟨hold, htask⟩ | hnew
        · -- only the task that has just connected it was to do so
          obtain rfl := hopenings.alone τ τ' c _ _ hopening hold
          exact htask rfl
        · omega
      · exact absurd hopening (hnot τ)

/-- In every run the frames sent over a connection begin with a handshake frame and contain no
other, `websockets.connect` returns at most once for it, and it has been opened by one task only,
however often the client reconnects, is stopped and is started again. -/
theorem one_handshake {es : List Event} (hrun : Run (step cfg) always World.init es w) :
    (∀ conn ∈ w.conns, conn.sent = [] ∨ conn.Greeted) ∧
      (∀ c, (outputs (step cfg) (connects c) World.init es).length ≤ 1) ∧
      ∀ c τ τ', OpenedBy cfg es c τ → OpenedBy cfg es c τ' → τ = τ' := by
  refine ⟨?_, ?_, ?_⟩
  · intro conn hconn
    obtain ⟨c, hc⟩ := List.mem_iff_getElem?.mp hconn
    exact ((openings_of_run hrun).greeted c conn hc).imp_left Connection.Blank.sent
  · intro c
    rcases connects_of_run hrun c with hnil | ⟨hone, -⟩
    · simp [hnil]
    · exact hone.le
  · intro c τ τ' h h'
    exact (openedBy_of_run hrun c τ' h').2 τ h

/-- The client subscribes: its connection was connected once, and the subscription follows the
handshake frame. -/
theorem one_handshake_subscribed :
    ∃ w, Run (step (.sample .kraken none)) always World.init subscribeEvents w ∧
      outputs (step (.sample .kraken none)) (connects 0) World.init subscribeEvents = [0] ∧
      (outputs (step (.sample .kraken none)) (connects 0) World.init
        subscribeEvents).length ≤ 1 ∧
      ∃ conn ∈ w.conns, conn.sent.length = 2 ∧ conn.Greeted := by
  obtain ⟨w, hrun, conn, hconn, hlength⟩ :
      ∃ w, Run (step (.sample .kraken none)) always World.init subscribeEvents w ∧
        ∃ conn ∈ w.conns, conn.sent.length = 2 := Run.exists_of_exec (by decide +kernel)
  obtain ⟨hgreeted, honce, -⟩ := one_handshake hrun
  refine ⟨w, hrun, by decide +kernel, honce 0, conn, hconn, hlength, ?_⟩
  refine (hgreeted conn hconn).resolve_left ?_
  intro hnil
  simp [hnil] at hlength

end ProxyClient.Websocket
