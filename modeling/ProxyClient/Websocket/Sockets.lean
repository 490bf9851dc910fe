import ProxyClient.Websocket.Lifecycle

/-!
# At most one open socket

A running client holds its connection in `_conn` and replaces it when `_pump` has returned. The
old socket is left to itself, which is right only if it has closed: an exception out of the
dispatch, a frame that `json.loads` cannot load and a `CancelledError` end the pump as well, and
the socket under it stays open. So does the one that a `start()` finds after such an end.
-/

namespace ProxyClient.Websocket

open Transition

variable {cfg : Config} {w₀ w w' : World} {e : Event} {τ σ c : ℕ}

/-- The connection on which a `start()` or a supervise task works. -/
def Body.worksOn : Body → Option ℕ
  | .start c _ | .supervise _ (.opening c _) | .supervise _ (.reading c)
  | .supervise _ (.inCallback c _ _) | .supervise _ (.inCallbackCall c _ _ _) => some c
  | _ => none

/-- A supervise task sleeps before it reconnects, and works on no connection. -/
def Body.rests : Body → Bool
  | .supervise _ (.backingOff _) => true
  | _ => false

/-- A step that leaves no open socket behind. -/
structure Replaces (cfg : Config) (w : World) (e : Event) : Prop where
  /-- On a running client, `_pump` returns for another reason than the end of its socket only
  when the socket is not open. -/
  ends : ∀ σ ∈ e.task, ∀ c ∈ (w.body σ).pumps, w.running = true →
    w.pumpAborts cfg σ e = true → w.socketOpen c = false
  /-- A `start()` begins after the `start()`, the supervise task and the `stop()` before it. -/
  alone : e = .start → w.running = false → ∀ τ < w.tasks.length,
    (w.body τ).leads = false ∧ (w.body τ).role ≠ .stop
  /-- It finds no open socket. -/
  closed : e = .start → w.running = false → ∀ c < w.conns.length, w.socketOpen c = false

instance (cfg : Config) (w : World) (e : Event) : Decidable (Replaces cfg w e) :=
  decidable_of_iff
    ((∀ σ ∈ e.task, ∀ c ∈ (w.body σ).pumps, w.running = true →
        w.pumpAborts cfg σ e = true → w.socketOpen c = false) ∧
      (e = .start → w.running = false → ∀ τ < w.tasks.length,
        (w.body τ).leads = false ∧ (w.body τ).role ≠ .stop) ∧
      (e = .start → w.running = false → ∀ c < w.conns.length, w.socketOpen c = false))
    ⟨fun ⟨hends, halone, hclosed⟩ => ⟨hends, halone, hclosed⟩,
      fun h => ⟨h.ends, h.alone, h.closed⟩⟩

/-- At most one socket is open, and it is the one that `_conn` holds. -/
structure OneSocket (w : World) : Prop where
  held : ∀ c, w.socketOpen c = true → w.conn = some c
  unique : ∀ c c', w.socketOpen c = true → w.socketOpen c' = true → c = c'

/-- How a coroutine of a running client stands to the sockets of the client. -/
structure Body.Tidy (w : World) (b : Body) : Prop where
  works : ∀ c, b.worksOn = some c → w.conn = some c
  /-- No socket is open during the sleep before a reconnect. -/
  rests : b.rests = true → ∀ c, w.socketOpen c = false
  /-- No `stop()` is under way. -/
  runs : b.role ≠ .stop

/-- The invariant: one task leads the session of a running client, and `_conn` holds the only
socket. -/
structure Sole (w : World) : Prop where
  single : ∀ τ τ', (w.body τ).leads = true → (w.body τ').leads = true → τ = τ'
  tidy : ∀ τ, (w.body τ).Tidy w
  held : ∀ c, w.socketOpen c = true → w.conn = some c

/-- A task that works on a connection is a `start()` or the supervise task. -/
theorem Body.leads_of_worksOn {b : Body} (h : b.worksOn = some c) : b.leads = true := by
  unfold Body.worksOn at h
  split at h <;> first | rfl | cases h

/-- The task that pumps a connection works on it. -/
theorem Body.worksOn_of_pumps {b : Body} (h : b.pumps = some c) : b.worksOn = some c := by
  rcases Body.pumps_cases h with ⟨a, rfl⟩ | ⟨a, f, cb, rfl⟩ | ⟨a, f, cb, k, rfl⟩ <;> exact h

/-- The task that sleeps before a reconnect is the supervise task. -/
theorem Body.leads_of_rests {b : Body} (h : b.rests = true) : b.leads = true := by
  unfold Body.rests at h
  split at h <;> first | rfl | cases h

/-- The task that reads a connection leads its session. -/
theorem Body.leads_of_reads {b : Body} (h : b.reads c = true) : b.leads = true := by
  unfold Body.reads at h
  split at h <;> first | rfl | cases h

/-- When somebody else reads a connection, there is a second leader. -/
theorem World.leads_of_readByOther (h : w.readByOther σ c = true) :
    ∃ τ, τ ≠ σ ∧ (w.body τ).leads = true := by
  obtain ⟨τ, -, hreads⟩ := List.any_eq_true.mp h
  obtain ⟨hne, hreads⟩ := Bool.and_eq_true_iff.mp hreads
  exact ⟨τ, by simpa using hne, Body.leads_of_reads hreads⟩

/-- A coroutine that works on no socket is tidy, if it does not rest either. -/
theorem Body.Tidy.idle {b : Body} (hworks : b.worksOn = none) (hrests : b.rests = false)
    (hruns : b.role ≠ .stop) : b.Tidy w where
  works c h := by simp [hworks] at h
  rests h := by simp [hrests] at h
  runs := hruns

/-- A coroutine at work on the connection that `_conn` holds. -/
theorem Body.Tidy.on {b : Body} (hworks : b.worksOn = some c) (hconn : w.conn = some c)
    (hrests : b.rests = false) (hruns : b.role ≠ .stop) : b.Tidy w where
  works c' h := by rw [hconn, ← hworks, h]
  rests h := by simp [hrests] at h
  runs := hruns

/-- A coroutine that leads no session is tidy, if it is no `stop()`. -/
theorem Body.Tidy.of_not_leads {b : Body} (hleads : b.leads = false) (hruns : b.role ≠ .stop) :
    b.Tidy w := by
  refine .idle ?_ ?_ hruns
  · by_contra hne
    obtain ⟨c, hworks⟩ := Option.ne_none_iff_exists'.mp hne
    simp [Body.leads_of_worksOn hworks] at hleads
  · by_contra hne
    simp [Body.leads_of_rests (by simpa using hne)] at hleads

/-- A tidy task stays tidy when `_conn` is the same and no socket opens. -/
theorem Body.Tidy.keeps {b : Body} (h : b.Tidy w) (hconn : w'.conn = w.conn)
    (hopen : ∀ c, w'.socketOpen c = true → w.socketOpen c = true) : b.Tidy w' where
  works c hc := hconn ▸ h.works c hc
  rests hb c := by
    have hclosed := h.rests hb c
    by_contra hne
    rw [hopen c (by simpa using hne)] at hclosed
    cases hclosed
  runs := h.runs

/-! ## Sockets after an update -/

/-- A new connection has no socket yet, so the open ones are those from before. -/
theorem World.socketOpen_append (h : w'.conns = w.conns ++ [({} : Connection)]) (c : ℕ) :
    w'.socketOpen c = w.socketOpen c := by
  simp only [socketOpen, sock, h]
  rcases Nat.lt_trichotomy c w.conns.length with hlt | rfl | hgt
  · rw [List.getElem?_append_left hlt]
  · simp
  · rw [List.getElem?_eq_none (by simp; omega), List.getElem?_eq_none (by omega)]

/-- An update that leaves the socket of a connection alone opens and closes none. -/
theorem World.socketOpen_modifyConn {f : Connection → Connection}
    (hf : ∀ conn, (f conn).sock = conn.sock) (c' : ℕ) :
    (w.modifyConn c f).socketOpen c' = w.socketOpen c' := by
  simp only [socketOpen, sock_modifyConn_of_sock hf c']

/-- No socket of a running client is open when its `_pump` has returned. -/
theorem PumpReturns.closed_sockets (h : PumpReturns cfg w₀ e w σ) (hok : Replaces cfg w₀ e)
    (hrun : w₀.running = true) (hsole : Sole w₀) (hattached : Attached w)
    (hheld : ∀ c, w.socketOpen c = true → w.conn = some c)
    (hother : ∀ τ, τ ≠ σ → (w.body τ).leads = false) (c : ℕ) : w.socketOpen c = false := by
  by_contra hne
  have hopen : w.socketOpen c = true := by simpa using hne
  have hconn := hheld c hopen
  have hpumped {c' : ℕ} (hpumps : (w₀.body σ).pumps = some c') (hsame : w.conn = w₀.conn) :
      c' = c := by
    have hworks := (hsole.tidy σ).works c' (Body.worksOn_of_pumps hpumps)
    rw [← hsame, hconn] at hworks
    exact (Option.some.inj hworks).symm
  cases h with
  | closed hpumps hsame hsock =>
    obtain rfl := hpumped hpumps hsame
    rw [World.socketOpen, hsock] at hopen
    cases hopen
  | aborts htask haborts hpumps hsame hsock =>
    obtain rfl := hpumped hpumps hsame
    have hclosed := hok.ends σ htask _ hpumps hrun haborts
    rw [World.socketOpen, ← hsock] at hclosed
    exact hne hclosed
  | absent hnone =>
    rw [hconn] at hnone
    cases hnone
  | detached hconn' hdetached =>
    obtain rfl := Option.some.inj (hconn.symm.trans hconn')
    obtain ⟨conn, hc, hopen'⟩ := World.socketOpen_iff.mp hopen
    simp [hc, hattached _ conn hc hopen'] at hdetached
  | concurrent hread =>
    obtain ⟨τ, hτ, hleads⟩ := World.leads_of_readByOther hread
    rw [hother τ hτ] at hleads
    cases hleads

/-! ## Moves -/

/-- The pump is entered by a leader. -/
theorem Enters.leads {b : Body} (h : Enters w₀ e w σ b) : b.leads = true := by
  cases h <;> rfl

/-- A replay is sent by a leader. -/
theorem Replays.leads {b : Body} {entry : Entry} {rest : List Entry}
    (h : Replays w b entry rest) : b.leads = true := by
  cases h <;> rfl

/-- A task of a running client stays tidy on its way to the next suspension point. -/
theorem Goes.tidy {b b' : Body} (h : Goes cfg w₀ e w τ b b') (hb : b.Tidy w)
    (hrun : w.running = true)
    (hreturns : PumpReturns cfg w₀ e w τ → b.leads = true → ∀ c, w.socketOpen c = false) :
    b'.Tidy w ∧ (b'.leads = true → b.leads = true) := by
  cases h with
  | finish => exact ⟨.of_not_leads rfl (by decide), by simp [Body.leads]⟩
  | reopen => exact ⟨.on rfl (hb.works _ rfl) rfl (by simp [Body.role]), id⟩
  | start => exact ⟨.on rfl (hb.works _ rfl) rfl (by simp [Body.role]), id⟩
  | backOff _ hpump =>
    exact ⟨⟨by simp [Body.worksOn], fun _ => hreturns hpump rfl, by simp [Body.role]⟩, fun _ => rfl⟩
  | enter henter _ hconn => exact ⟨.on rfl hconn rfl (by simp [Body.role]), fun _ => henter.leads⟩
  | read => exact ⟨.on rfl (hb.works _ rfl) rfl (by simp [Body.role]), id⟩
  | handle => exact ⟨.on rfl (hb.works _ rfl) rfl (by simp [Body.role]), id⟩
  | recancel => exact ⟨hb, id⟩
  | gap hreplays => exact ⟨.idle rfl rfl (by simp [Body.role]), fun _ => hreplays.leads⟩
  | sleep => exact ⟨.of_not_leads rfl (by simp [Body.role]), by simp [Body.leads]⟩
  | rest => exact ⟨.of_not_leads rfl (by simp [Body.role]), by simp [Body.leads]⟩
  | stop hstop =>
    rcases hstop with ⟨pc, rfl⟩ | ⟨-, hstopped, -⟩
    · exact absurd rfl hb.runs
    · rw [hrun] at hstopped
      cases hstopped

namespace Sole

/-- A move that changes neither `_conn` nor a leader and opens no socket. -/
theorem update (h : Sole w) (hconn : w'.conn = w.conn)
    (hopen : ∀ c, w'.socketOpen c = true → w.socketOpen c = true)
    (hbody : ∀ τ, w'.body τ = w.body τ ∨
      ((w'.body τ).Tidy w' ∧ ((w'.body τ).leads = true → (w.body τ).leads = true))) :
    Sole w' where
  single τ τ' hτ hτ' := by
    have hleads {τ : ℕ} (hτ : (w'.body τ).leads = true) : (w.body τ).leads = true := by
      rcases hbody τ with hsame | ⟨-, hold⟩
      · rwa [hsame] at hτ
      · exact hold hτ
    exact h.single τ τ' (hleads hτ) (hleads hτ')
  tidy τ := by
    rcases hbody τ with hsame | ⟨htidy, -⟩
    · rw [hsame]
      exact (h.tidy τ).keeps hconn hopen
    · exact htidy
  held c hc := hconn ▸ h.held c (hopen c hc)

/-- A move that leaves the tasks alone, and the sockets with them. -/
theorem keeps (h : Sole w) (hconn : w'.conn = w.conn)
    (hopen : ∀ c, w'.socketOpen c = w.socketOpen c) (hbody : ∀ τ, w'.body τ = w.body τ) :
    Sole w' :=
  h.update hconn (fun c hc => hopen c ▸ hc) (fun τ => .inl (hbody τ))

/-- A task goes on, on the connection on which it worked or on none. -/
theorem setBody (h : Sole w) {b : Body} (hconn : w'.conn = w.conn)
    (hopen : ∀ c, w'.socketOpen c = w.socketOpen c)
    (hbody : ∀ τ', w'.body τ' = (w.setBody τ b).body τ') (htidy : b.Tidy w)
    (hleads : b.leads = true → (w.body τ).leads = true) : Sole w' := by
  have hopen' (c : ℕ) (hc : w'.socketOpen c = true) : w.socketOpen c = true := hopen c ▸ hc
  apply h.update hconn hopen'
  intro τ'
  rw [hbody]
  rcases World.body_setBody_cases (w := w) (τ := τ) (b := b) τ' with ⟨rfl, hb, -⟩ | hb
  · rw [hb]
    exact .inr ⟨htidy.keeps hconn hopen', hleads⟩
  · exact .inl hb

/-- A task that leads no session is created. -/
theorem spawn (h : Sole w) {b : Body} (hconn : w'.conn = w.conn)
    (hopen : ∀ c, w'.socketOpen c = w.socketOpen c)
    (hbody : ∀ τ, w'.body τ = (w.spawn b).body τ) (hleads : b.leads = false)
    (hruns : b.role ≠ .stop) : Sole w' := by
  apply h.update hconn (fun c hc => hopen c ▸ hc)
  intro τ
  rw [hbody]
  rcases World.body_spawn_cases (w := w) (b := b) τ with ⟨-, hb⟩ | hb
  · rw [hb]
    exact .inr ⟨.of_not_leads hleads hruns, by simp [hleads]⟩
  · exact .inl hb

/-- One task leads the session, and it works on a socket that `_conn` holds. -/
theorem lead {b : Body} (hσ : w.body σ = b) (htidy : b.Tidy w)
    (hother : ∀ τ, τ ≠ σ → (w.body τ).leads = false ∧ (w.body τ).role ≠ .stop)
    (hheld : ∀ c, w.socketOpen c = true → w.conn = some c) : Sole w where
  single τ τ' hτ hτ' := by
    have heq {τ : ℕ} (hτ : (w.body τ).leads = true) : τ = σ := by
      by_contra hne
      rw [(hother τ hne).1] at hτ
      cases hτ
    exact (heq hτ).trans (heq hτ').symm
  tidy τ := by
    by_cases hτ : τ = σ
    · rw [hτ, hσ]
      exact htidy
    · exact .of_not_leads (hother τ hτ).1 (hother τ hτ).2
  held := hheld

/-- The tasks beside the leader lead nothing, and none of them is a `stop()`. -/
theorem others (h : Sole w) (hlead : (w.body σ).leads = true) (hne : τ ≠ σ) :
    (w.body τ).leads = false ∧ (w.body τ).role ≠ .stop := by
  refine ⟨?_, (h.tidy τ).runs⟩
  by_contra hleads
  exact hne (h.single τ σ (by simpa using hleads) hlead)

/-- A new connection has no open socket, so when every socket of a client is closed before it
replaces its connection, the one that it holds afterwards is the only one that can open. -/
theorem held_of_append (h : w'.conns = w.conns ++ [({} : Connection)])
    (hnone : ∀ c, w.socketOpen c = false) (c : ℕ) (hc : w'.socketOpen c = true) :
    w'.conn = some c := by
  rw [World.socketOpen_append h, hnone] at hc
  cases hc

/-- What happens to a connection leaves the invariant as it is: a socket that opens is the one on
which the leader of the session works, and the leader does not sleep meanwhile. -/
theorem alter (cfg : Config) (h : Sole w) {f : Connection → Connection}
    (halters : Alters w₀ e w c f) : Sole (w.modifyConn c f) := by
  have hmove : Move cfg w₀ e w (w.modifyConn c f) := .alter halters
  have hopening {c' τ : ℕ} (h : w.opening? τ = some (c', .connecting)) :
      (w.body τ).worksOn = some c' := by
    rcases World.opening_of_opening? h with ⟨a, stage, hb⟩ | ⟨stage, hb⟩ <;> rw [hb] <;> rfl
  refine ⟨h.single, fun τ => ⟨(h.tidy τ).works, ?_, (h.tidy τ).runs⟩, ?_⟩
  · intro hrests c'
    by_contra hne
    rcases hmove.socketOpen (c := c') (by simpa using hne) with hold | ⟨τ', -, -, hopens⟩
    · simp [(h.tidy τ).rests hrests c'] at hold
    · obtain rfl := h.single τ τ' (Body.leads_of_rests hrests)
        (Body.leads_of_worksOn (hopening hopens))
      have hrests' : (w.body τ).rests = true := hrests
      rcases World.opening_of_opening? hopens with ⟨a, stage, hb⟩ | ⟨stage, hb⟩ <;>
        rw [hb] at hrests' <;> cases hrests'
  · intro c' hc'
    rcases hmove.socketOpen hc' with hold | ⟨τ', -, -, hopens⟩
    · exact h.held c' hold
    · exact (h.tidy τ').works c' (hopening hopens)

/-- A `start()` that finds no open socket and no task of an earlier session is the only leader,
and its connection is the one that `_conn` holds. -/
theorem start (hok : Replaces cfg w .start) (hrun : w.running = false) :
    Sole ({ w with running := true, shutdown := false, conn := some w.conns.length,
                   conns := w.conns ++ [({} : Connection)] }.spawn
      (.start w.conns.length .connecting)) := by
  have hnone (c : ℕ) : w.socketOpen c = false := by
    by_cases hlt : c < w.conns.length
    · exact hok.closed rfl hrun c hlt
    · simp [World.socketOpen, World.sock, Sock.isOpen, List.getElem?_eq_none (not_lt.mp hlt)]
  refine .lead (World.body_spawn_self _ _) (.on rfl rfl rfl (by simp [Body.role])) ?_
    (held_of_append (w := w) rfl hnone)
  intro τ hτ
  rw [World.body_spawn_of_ne _ hτ]
  by_cases hlt : τ < w.tasks.length
  · exact hok.alone rfl hrun τ hlt
  · have hb : w.body τ = .finished := by
      by_contra hne
      exact hlt (World.lt_of_body_ne hne)
    exact (congrArg (fun b => b.leads = false ∧ b.role ≠ .stop) hb).mpr ⟨rfl, by decide⟩

/-- The supervise task opens another connection while every socket is closed. -/
theorem beginReconnect (h : Sole w) {a : ℕ} (hlead : (w.body σ).leads = true)
    (hnone : ∀ c, w.socketOpen c = false) : Sole (w.beginReconnect σ a) := by
  have hlt := World.lt_of_leads hlead
  refine .lead (World.body_setBody_self _ hlt) (.on rfl rfl rfl (by simp [Body.role])) ?_
    (held_of_append (w := w) rfl hnone)
  intro τ hτ
  have hsame : (w.beginReconnect σ a).body τ = w.body τ := World.body_setBody_of_ne _ hτ
  rw [hsame]
  exact h.others hlead hτ

/-- The `start()` that returns hands the session to the supervise task that it creates. -/
theorem supervise (h : Sole w) (hlead : (w.body τ).leads = true) (task : Option ℕ) :
    Sole ({ w.finish τ with superviseTask := task }.spawn (.supervise 0 .ready)) := by
  have hlt := World.lt_of_leads hlead
  have hself : (w.finish τ).body τ = .finished := World.body_setBody_self _ hlt
  refine .lead (World.body_spawn_self _ _) (.idle rfl rfl (by simp [Body.role])) ?_ h.held
  intro τ' hτ'
  rw [World.body_spawn_of_ne _ hτ']
  by_cases hτ : τ' = τ
  · subst hτ
    exact (congrArg (fun b => b.leads = false ∧ b.role ≠ .stop) hself).mpr ⟨rfl, by decide⟩
  · have hsame : (w.finish τ).body τ' = w.body τ' := World.body_setBody_of_ne _ hτ
    exact (congrArg (fun b => b.leads = false ∧ b.role ≠ .stop) hsame).mpr
      (h.others hlead hτ)

/-- A task that begins to await a call works on the connection on which it worked before. -/
theorem call (h : Sole w) {k : ℕ} {call : Call} {b : Body}
    (hcalls : Calls w₀ w τ k call (w.body τ) b) :
    Sole ((w.launched call c).setBody τ b) := by
  have hopen (c' : ℕ) : (w.launched call c).socketOpen c' = w.socketOpen c' :=
    World.socketOpen_modifyConn (by intro conn; exact Connection.sock_write conn _) c'
  have htidy := h.tidy τ
  generalize hb : w.body τ = b₀ at hcalls htidy
  cases hcalls with
  | callback =>
    exact h.setBody rfl hopen (fun _ => rfl)
      (.on rfl (htidy.works _ rfl) rfl (by simp [Body.role])) (fun _ => by rw [hb]; rfl)
  | replay _ _ hreplays =>
    exact h.setBody rfl hopen (fun _ => rfl) (.idle rfl rfl (by simp [Body.role]))
      (fun _ => hb ▸ hreplays.leads)
  | heartbeat =>
    exact h.setBody rfl hopen (fun _ => rfl)
      (.of_not_leads rfl (by simp [Body.role])) (by simp [Body.leads])

/-- So does a task that goes on after its call. -/
theorem resume (h : Sole w) {k : ℕ} {outcome : Outcome} {b : Body}
    (hresumes : Resumes τ k outcome (w.body τ) b) :
    Sole ((w.endCall cfg k outcome).setBody τ b) := by
  rw [endCall_eq]
  have htidy := h.tidy τ
  generalize hb : w.body τ = b₀ at hresumes htidy
  cases hresumes with
  | callback =>
    exact h.setBody rfl (fun _ => rfl) (fun _ => rfl)
      (.on rfl (htidy.works _ rfl) rfl (by simp [Body.role])) (fun _ => by rw [hb]; rfl)
  | replay =>
    exact h.setBody rfl (fun _ => rfl) (fun _ => rfl)
      (.idle rfl rfl (by simp [Body.role])) (fun _ => by rw [hb]; rfl)
  | _ =>
    exact h.setBody rfl (fun _ => rfl) (fun _ => rfl)
      (.of_not_leads rfl (by simp [Body.role])) (by simp [Body.leads])

end Sole

/-- A step that sets a client running is not the step of a task. -/
theorem running_of_acts (h : Moves cfg w₀ e w₀ w) (hrun : w.running = true)
    (hact : Acts w₀ e τ) : w₀.running = true := by
  rcases h.running hrun with hrun₀ | rfl
  · exact hrun₀
  · cases hact with
    | task htask => cases htask
    | call hcallNo => cases hcallNo

/-- When the pump of a running client returns in such a step, no socket of the client is open:
neither the one that was read nor, the leader being alone, another. -/
theorem PumpReturns.no_socket (h : PumpReturns cfg w₀ e w σ) (hok : Replaces cfg w₀ e)
    (hattached : Attached w) (hmoves : Moves cfg w₀ e w₀ w)
    (hsole₀ : w₀.running = true → Sole w₀) (hsole : Sole w) (hrun : w.running = true)
    (hact : Acts w₀ e σ) (hlead : (w.body σ).leads = true) (c : ℕ) : w.socketOpen c = false := by
  have hrun₀ := running_of_acts hmoves hrun hact
  exact h.closed_sockets hok hrun₀ (hsole₀ hrun₀) hattached hsole.held
    (fun τ hτ => (hsole.others hlead hτ).1) c

/-- Every move of a step that leaves no open socket behind keeps the invariant of a client that
runs. -/
theorem Move.sole (h : Move cfg w₀ e w w') (hok : Replaces cfg w₀ e) (hattached : Attached w)
    (hmoves : Moves cfg w₀ e w₀ w) (hsole₀ : w₀.running = true → Sole w₀)
    (hsole : w.running = true → Sole w) (hrun' : w'.running = true) : Sole w' := by
  cases h with
  | halt => cases hrun'
  | alter halters => exact (hsole hrun').alter cfg halters
  | drop hstop =>
    rcases hstop with ⟨hstopped, -⟩ | ⟨τ, pc, -, hb⟩
    · rw [show w.running = true from hrun'] at hstopped
      cases hstopped
    · exact absurd (by rw [hb]; rfl) ((hsole hrun').tidy τ).runs
  | start he hw hrun =>
    subst he hw
    exact .start hok hrun
  | @goto τ b hact hgo =>
    have hrun : w.running = true := hrun'
    obtain ⟨htidy, hleads⟩ := hgo.tidy ((hsole hrun).tidy τ) hrun
      (fun hpump hlead c =>
        hpump.no_socket hok hattached hmoves hsole₀ (hsole hrun) hrun hact hlead c)
    exact (hsole hrun).setBody rfl (fun _ => rfl) (fun _ => rfl) htidy hleads
  | @reconnect σ a a' pc hact hb _ hrun hwhy =>
    have hlead : (w.body σ).leads = true := by rw [hb]; rfl
    refine (hsole hrun).beginReconnect hlead ?_
    intro c
    rcases hwhy with hpump | ⟨wake, rfl⟩
    · exact hpump.no_socket hok hattached hmoves hsole₀ (hsole hrun) hrun hact hlead c
    · exact ((hsole hrun).tidy σ).rests (by rw [hb]; rfl) c
  | @take σ a c f inbox _ _ hb =>
    refine (hsole hrun').setBody rfl (fun c' => ?_) (fun _ => rfl)
      (.on rfl (((hsole hrun').tidy σ).works c (by rw [hb]; rfl)) rfl (by simp [Body.role]))
      (fun _ => by rw [hb]; rfl)
    exact World.socketOpen_modifyConn (by intro conn; rfl) c'
  | supervise _ hb =>
    exact (hsole hrun').supervise (by rw [hb]; rfl) _
  | heartbeat =>
    exact (hsole hrun').spawn rfl (fun _ => rfl) (fun _ => rfl) rfl (by simp [Body.role])
  | stop => exact (hsole hrun').spawn rfl (fun _ => rfl) (fun _ => rfl) rfl (by decide)
  | cancelTask τ =>
    exact (hsole hrun').keeps rfl (fun _ => rfl) (World.body_requestCancel w τ)
  | launch =>
    refine (hsole hrun').keeps rfl (fun c => ?_) (fun _ => rfl)
    exact World.socketOpen_modifyConn (by intro conn; exact Connection.sock_write conn _) c
  | call _ _ _ _ hcalls => exact (hsole hrun').call hcalls
  | endCall =>
    rw [endCall_eq] at hrun' ⊢
    exact (hsole hrun').keeps rfl (fun _ => rfl) (fun _ => rfl)
  | resume _ _ _ _ _ hresumes =>
    rw [endCall_eq] at hrun'
    exact (hsole hrun').resume hresumes
  | _ => exact (hsole hrun').keeps rfl (fun _ => rfl) (fun _ => rfl)

/-- A step that leaves no open socket behind keeps the invariant throughout. -/
theorem Moves.sole (h : Moves cfg w₀ e w₀ w) (hok : Replaces cfg w₀ e) (hsound : Sound cfg w₀)
    (hsole : w₀.running = true → Sole w₀) : w.running = true → Sole w := by
  induction h with
  | refl => exact hsole
  | tail hchain hlast ih =>
    exact hlast.sole hok (hsound.moves hchain).attached hchain hsole ih

/-- The invariant of a client that runs holds in every state of such a run. -/
theorem sole_of_run {es : List Event} (hrun : Run (step cfg) (Replaces cfg) World.init es w)
    (hrunning : w.running = true) : Sole w :=
  invariant_of_moves (I := fun w => w.running = true → Sole w) hrun (fun h => by cases h)
    (fun hok _ hsole₀ hsound hsole hmoves hmove =>
      hmove.sole hok hsound.attached hmoves hsole₀ hsole) hrunning

/-- In every run of such steps, a running client has at most one open socket, the one that
`_conn` holds, and a step after which another connection is held leaves the old socket closed. -/
theorem one_socket {es : List Event} (hrun : Run (step cfg) (Replaces cfg) World.init es w)
    (hrunning : w.running = true) :
    OneSocket w ∧ ∀ e w', Replaces cfg w e → step cfg w e = some w' → w'.running = true →
      ∀ c, w.conn = some c → w'.conn ≠ some c → w'.socketOpen c = false := by
  have hsole := sole_of_run hrun hrunning
  refine ⟨⟨hsole.held, ?_⟩, ?_⟩
  · intro c c' hc hc'
    exact Option.some.inj ((hsole.held c hc).symm.trans (hsole.held c' hc'))
  · intro e w' hok hstep hrunning' c _ hne
    have hsole' := sole_of_run (hrun.snoc hok hstep) hrunning'
    by_contra hopen
    exact hne (hsole'.held c (by simpa using hopen))

/-- The connection drops and the client reconnects, after the sleep that the policy asks for. -/
def reconnectEvents : List Event :=
  startEvents ++ [.sockClosed 0 true, .socketEnd 1, .tick 1, .wake 1, .connected 1]

/-- The condition is met by a reconnect, after which the new socket is the only open one. -/
theorem one_socket_reconnected :
    ∃ w, Run (step (.sample .kraken none)) (Replaces (.sample .kraken none)) World.init
        reconnectEvents w ∧
      w.running = true ∧ w.socketOpen 1 = true ∧ w.conn = some 1 ∧ OneSocket w := by
  obtain ⟨w, hrun, hrunning, hopen, hconn⟩ :
      ∃ w, Run (step (.sample .kraken none)) (Replaces (.sample .kraken none)) World.init
          reconnectEvents w ∧
        w.running = true ∧ w.socketOpen 1 = true ∧ w.conn = some 1 :=
    Run.exists_of_exec (by decide +kernel)
  exact ⟨w, hrun, hrunning, hopen, hconn, (one_socket hrun hrunning).1⟩

/-- The Proxy sends a frame that is no JSON object, and the client reconnects. -/
def leakingEvents : List Event :=
  startEvents ++ [.frame 0 ⟨.json (.arr []), none⟩, .recv 1, .callbackEnd 1 .returned, .tick 1,
    .wake 1, .connected 1]

/-- Both sockets are open, and the client holds the second one. -/
theorem array_frame_leaks_socket :
    ∃ w, Run (step (.sample .kraken none)) always World.init leakingEvents w ∧
      w.running = true ∧ w.socketOpen 0 = true ∧ w.socketOpen 1 = true ∧ w.conn = some 1 :=
  Run.exists_of_exec (by decide +kernel)

end ProxyClient.Websocket
