import ProxyClient.Websocket.Step

/-!
# What the updates of a state leave alone

Each update of the state of a client touches one component. The lemmas below read the
tasks and the connections back after an update.
-/

namespace ProxyClient.Websocket

namespace World

/-! ## Tasks -/

/-- A task that has not finished is one of the tasks. -/
theorem lt_of_body_ne {w : World} {τ : ℕ} (h : w.body τ ≠ .finished) : τ < w.tasks.length := by
  by_contra hlt
  have hnone : w.tasks[τ]? = none := List.getElem?_eq_none (by omega)
  exact h (by simp [body, hnone])

/-- The bodies depend on the tasks only, not on the rest of the state. -/
theorem body_congr {w w' : World} (h : w'.tasks = w.tasks) : w'.body = w.body := by
  funext τ
  simp [body, h]

/-- A task that goes on is where it went. -/
theorem body_setBody_self {w : World} {τ : ℕ} (b : Body) (h : τ < w.tasks.length) :
    (w.setBody τ b).body τ = b := by
  simp [body, h]

/-- The other tasks are where they were. -/
theorem body_setBody_of_ne {w : World} {τ τ' : ℕ} (b : Body) (h : τ' ≠ τ) :
    (w.setBody τ b).body τ' = w.body τ' := by
  simp [body, Ne.symm h]

/-- A request to cancel moves no task: it arrives when the task is next resumed. -/
@[simp] theorem body_requestCancel (w : World) (τ τ' : ℕ) :
    (w.requestCancel τ).body τ' = w.body τ' := by
  by_cases h : τ = τ'
  · subst h
    cases hτ : w.tasks[τ]? <;> simp [body, hτ]
  · simp [body, h]

/-- A new task gets the next number. -/
theorem body_spawn_self (w : World) (b : Body) : (w.spawn b).body w.tasks.length = b := by
  simp [body]

/-- It changes no other task. -/
theorem body_spawn_of_ne {w : World} {τ : ℕ} (b : Body) (h : τ ≠ w.tasks.length) :
    (w.spawn b).body τ = w.body τ := by
  rcases Nat.lt_or_gt_of_ne h with hlt | hgt
  · simp [body, List.getElem?_append_left hlt]
  · have hold : w.tasks[τ]? = none := List.getElem?_eq_none (by omega)
    have hnew : (w.tasks ++ [{ body := b }])[τ]? = none :=
      List.getElem?_eq_none (by simp; omega)
    simp [body, hold, hnew]

/-- After a task was created, a body is the new one or that of an old task. -/
theorem body_spawn_cases {w : World} {b : Body} (τ : ℕ) :
    (τ = w.tasks.length ∧ (w.spawn b).body τ = b) ∨ (w.spawn b).body τ = w.body τ := by
  by_cases h : τ = w.tasks.length
  · subst h
    exact .inl ⟨rfl, body_spawn_self w b⟩
  · exact .inr (body_spawn_of_ne b h)

/-- After an update of one task, a body is the new one or that of an untouched task. -/
theorem body_setBody_cases {w : World} {τ : ℕ} {b : Body} (τ' : ℕ) :
    (τ' = τ ∧ (w.setBody τ b).body τ' = b ∧ τ < w.tasks.length) ∨
      (w.setBody τ b).body τ' = w.body τ' := by
  by_cases h : τ' = τ
  · subst h
    by_cases hlt : τ' < w.tasks.length
    · exact .inl ⟨rfl, body_setBody_self b hlt, hlt⟩
    · have hnone : w.tasks[τ']? = none := List.getElem?_eq_none (by omega)
      exact .inr (by simp [body, hnone])
  · exact .inr (body_setBody_of_ne b h)

/-! ## What is seen of a task -/

section Seen

variable {α : Type*} {g : Body → Option α}

/-- What no finished task shows is gone when a task is taken to a body that does not show it. -/
theorem seen_setBody {w : World} {σ : ℕ} {b : Body} (hfinished : g .finished = none)
    (hb : g b = none) : g ((w.setBody σ b).body σ) = none := by
  by_cases hlt : σ < w.tasks.length
  · rw [body_setBody_self b hlt, hb]
  · have hnone : w.tasks[σ]? = none := List.getElem?_eq_none (by omega)
    simp [body, hnone, hfinished]

/-- A pump that returned is followed by a sleep, by `open()` or by the end of the task. -/
theorem seen_pumpReturned (cfg : Config) (w : World) (σ a : ℕ) (exc : Option Exc)
    (hfinished : g .finished = none)
    (hbackingOff : ∀ a wake, g (.supervise a (.backingOff wake)) = none)
    (hopening : ∀ a c stage, g (.supervise a (.opening c stage)) = none) :
    g ((w.pumpReturned cfg σ a exc).body σ) = none := by
  unfold pumpReturned
  split
  · simp only
    split
    · exact seen_setBody hfinished hfinished
    · exact seen_setBody hfinished hfinished
    · split
      · exact seen_setBody hfinished (hbackingOff _ _)
      · exact seen_setBody hfinished (hopening _ _ _)
  · exact seen_setBody hfinished hfinished

end Seen

/-! ## Connections -/

/-- A connection that is updated is the update of what it was. -/
theorem getElem?_modifyConn_self (w : World) (c : ℕ) (f : Connection → Connection) :
    (w.modifyConn c f).conns[c]? = w.conns[c]?.map f := by
  simp

/-- The other connections are as they were. -/
theorem getElem?_modifyConn_of_ne {w : World} {c c' : ℕ} (f : Connection → Connection)
    (h : c' ≠ c) : (w.modifyConn c f).conns[c']? = w.conns[c']? := by
  simp [Ne.symm h]

/-- What a connection can be after one of them was updated. -/
theorem conn_modifyConn_cases {w : World} {c c' : ℕ} {f : Connection → Connection}
    {conn : Connection} (h : (w.modifyConn c f).conns[c']? = some conn) :
    (c' ≠ c ∧ w.conns[c']? = some conn) ∨
      (c' = c ∧ ∃ conn₀, w.conns[c]? = some conn₀ ∧ conn = f conn₀) := by
  by_cases hc : c' = c
  · subst hc
    rw [getElem?_modifyConn_self] at h
    obtain ⟨conn₀, hconn₀, hconn⟩ := Option.map_eq_some_iff.mp h
    exact .inr ⟨rfl, conn₀, hconn₀, hconn.symm⟩
  · rw [getElem?_modifyConn_of_ne f hc] at h
    exact .inl ⟨hc, h⟩

/-- So are their sockets. -/
theorem sock_modifyConn_of_ne {w : World} {c c' : ℕ} (f : Connection → Connection)
    (h : c' ≠ c) : (w.modifyConn c f).sock c' = w.sock c' := by
  simp [sock, Ne.symm h]

/-- An update that leaves the socket alone leaves that of every connection alone. -/
theorem sock_modifyConn_of_sock {w : World} {c : ℕ} {f : Connection → Connection}
    (hf : ∀ conn, (f conn).sock = conn.sock) (c' : ℕ) :
    (w.modifyConn c f).sock c' = w.sock c' := by
  by_cases h : c' = c
  · subst h
    cases hc : w.conns[c']? <;> simp [sock, hc, hf]
  · exact sock_modifyConn_of_ne f h

end World

end ProxyClient.Websocket
