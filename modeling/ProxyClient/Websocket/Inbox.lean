import ProxyClient.Websocket.Reachable

/-!
# The inbox of a connection is a queue

Frames arrive at the end of the inbox of a connection. The handshake of `open()` and the pump
take them from its front, one at a time, and nothing else touches it. So the frames taken from
a connection and those left in its inbox are the frames that arrived on it, in order.
-/

namespace ProxyClient.Websocket

variable {cfg : Config} {w₀ w w' : World} {e : Event} {τ c : ℕ}

/-- The frames that arrived on a connection and were not taken yet. -/
def World.inbox (w : World) (c : ℕ) : List Inbound := (w.conns[c]?.map Connection.inbox).getD []

/-- The frame that arrives on a connection in a step. -/
def arrived (c : ℕ) (_ : World) : Event → Option Inbound
  | .frame c' f => if c' = c then some f else none
  | _ => none

/-- The frame that `open()` or the pump takes from a connection in a step. -/
def taken (c : ℕ) (w : World) : Event → Option Inbound
  | .recv τ | .authReply τ => if (w.body τ).reads c then (w.inbox c).head? else none
  | _ => none

namespace World

/-- The inbox is a part of the connection. -/
theorem inbox_congr (h : w'.conns = w.conns) (c : ℕ) : w'.inbox c = w.inbox c := by
  rw [inbox, inbox, h]

/-- An update that leaves the inbox alone. -/
theorem inbox_modifyConn {f : Connection → Connection} (hf : ∀ conn, (f conn).inbox = conn.inbox)
    (c c' : ℕ) : (w.modifyConn c f).inbox c' = w.inbox c' := by
  by_cases h : c = c'
  · subst h
    cases hc : w.conns[c]? <;> simp [inbox, hc, hf]
  · simp [inbox, h]

/-- A new connection has an empty inbox. -/
theorem inbox_concat (h : w'.conns = w.conns ++ [({} : Connection)]) (c : ℕ) :
    w'.inbox c = w.inbox c := by
  rw [inbox, inbox, h]
  rcases Nat.lt_trichotomy c w.conns.length with hlt | rfl | hgt
  · rw [List.getElem?_append_left hlt]
  · simp
  · rw [List.getElem?_eq_none (by simp; omega), List.getElem?_eq_none (by omega)]

/-- A task that awaits the reply of the Proxy reads its connection. -/
theorem reads_of_opening {deadline : ℚ}
    (h : w.opening? τ = some (c, .awaitingReply deadline)) (c' : ℕ) :
    (w.body τ).reads c' = decide (c = c') := by
  unfold opening? at h
  split at h
  · rename_i hb
    obtain ⟨rfl, rfl⟩ := Prod.mk.inj (Option.some.inj h)
    rw [hb]
    rfl
  · rename_i hb
    obtain ⟨rfl, rfl⟩ := Prod.mk.inj (Option.some.inj h)
    rw [hb]
    rfl
  · cases h

/-- The first frame of an inbox is taken. -/
theorem inbox_pop {f : Inbound} {inbox : List Inbound}
    (h : w.conns[c]?.map Connection.inbox = some (f :: inbox)) (c' : ℕ) :
    w.inbox c' = (if c = c' then [f] else []) ++
      (w.modifyConn c (fun conn => { conn with inbox := inbox })).inbox c' := by
  obtain ⟨conn, hconn, hinbox⟩ := Option.map_eq_some_iff.mp h
  by_cases hc : c = c'
  · subst hc
    simp [World.inbox, hconn, hinbox]
  · simp [World.inbox, hc]

end World

/-- Of the updates of a connection, only the arrival and the taking of a frame touch its
inbox. -/
theorem Alters.inbox_eq {g : Connection → Connection} (h : Alters w₀ e w c g)
    (hframe : ∀ c f, e ≠ .frame c f)
    (hpop : w = w₀ → ∀ τ, e ≠ .recv τ ∧ e ≠ .authReply τ) (conn : Connection) :
    (g conn).inbox = conn.inbox := by
  cases h with
  | arrive he => exact absurd he (hframe _ _)
  | pop he hw =>
    rcases he with he | he
    · exact absurd he (hpop hw _).1
    · exact absurd he (hpop hw _).2
  | beginClose =>
    unfold Connection.beginClose
    split <;> rfl
  | endClose =>
    unfold Connection.endClose
    split <;> rfl
  | connect => exact Connection.inbox_write _ _
  | message => exact Connection.inbox_write _ _
  | _ => rfl

/-- A move in which no frame arrives or is taken leaves every inbox alone. -/
theorem Move.inbox_eq (h : Move cfg w₀ e w w') (hframe : ∀ c f, e ≠ .frame c f)
    (hpop : w = w₀ → ∀ τ, e ≠ .recv τ ∧ e ≠ .authReply τ) (c : ℕ) :
    w'.inbox c = w.inbox c := by
  cases h with
  | alter halters => exact World.inbox_modifyConn (halters.inbox_eq hframe hpop) _ c
  | start => exact World.inbox_concat rfl c
  | reconnect => exact World.inbox_concat rfl c
  | take he hw => exact absurd he (hpop hw _).1
  | launch => exact World.inbox_modifyConn (fun conn => Connection.inbox_write conn _) _ c
  | call => exact World.inbox_modifyConn (fun conn => Connection.inbox_write conn _) _ c
  | endCall => exact World.inbox_congr (conns_endCall _ _ _ _) c
  | resume => exact World.inbox_congr (conns_endCall _ _ _ _) c
  | _ => rfl

/-- The inboxes change no more once a frame was taken in the step. -/
theorem Moves.inbox_eq {w₁ : World} (h : Moves cfg w₀ e w₁ w') (hframe : ∀ c f, e ≠ .frame c f)
    (hpop : (∃ c, w₁.inbox c ≠ w₀.inbox c) ∨ ∀ τ, e ≠ .recv τ ∧ e ≠ .authReply τ) (c : ℕ) :
    w'.inbox c = w₁.inbox c := by
  induction h generalizing c with
  | refl => rfl
  | @tail w w' _ hlast ih =>
    rw [hlast.inbox_eq hframe ?_ c, ih c]
    rintro rfl
    rcases hpop with ⟨c', hne⟩ | hpop
    · exact absurd (ih c').symm hne
    · exact hpop

/-- A step that begins with the taking of a frame takes no other. -/
theorem Moves.inbox_pop {f : Inbound} {inbox : List Inbound}
    (hinbox : w.conns[c]?.map Connection.inbox = some (f :: inbox))
    (h : Moves cfg w e (w.modifyConn c (fun conn => { conn with inbox := inbox })) w')
    (hframe : ∀ c f, e ≠ .frame c f) (c' : ℕ) :
    w.inbox c' = (if c = c' then [f] else []) ++ w'.inbox c' := by
  have hpop := World.inbox_pop hinbox
  have hne : (w.modifyConn c (fun conn => { conn with inbox := inbox })).inbox c ≠ w.inbox c := by
    rw [hpop c]
    simp
  rw [h.inbox_eq hframe (.inl ⟨c, hne⟩) c']
  exact hpop c'

/-- `recv` takes the first frame of the inbox. -/
theorem recv_takes {σ : ℕ} (h : step cfg w (.recv σ) = some w') :
    ∃ attempt c f, w.body σ = .supervise attempt (.reading c) ∧
      ∀ c', w.inbox c' = (if c = c' then [f] else []) ++ w'.inbox c' := by
  have hact : Acts w (.recv σ) σ := .task rfl
  simp only [step] at h
  split at h
  · cases h
  · unfold World.recvStep at h
    split at h
    · rename_i attempt c hb
      split at h
      · rename_i f inbox hinbox
        refine ⟨attempt, c, f, hb, ?_⟩
        set w₁ : World := w.modifyConn c (fun conn => { conn with inbox := inbox })
        have hb₁ : w₁.body σ = .supervise attempt (.reading c) := hb
        have hreturned (hreturns : w₁.running = true → PumpReturns cfg w (.recv σ) w₁ σ)
            (exc : Option Exc) : Moves cfg w (.recv σ) w₁ (w₁.pumpReturned cfg σ attempt exc) :=
          Moves.pumpReturned hact hb₁ rfl rfl hreturns exc
        simp only at h
        split at h
        · split at h
          · exact Option.some.inj h ▸ World.inbox_pop hinbox
          · rename_i hraw
            have haborts : w.pumpAborts cfg σ (.recv σ) = true := by
              simp [World.pumpAborts, hb, hinbox, hraw]
            have hreturns : PumpReturns cfg w (.recv σ) w₁ σ :=
              .aborts rfl haborts (by rw [hb]; rfl) rfl
                (World.sock_modifyConn_of_sock (by intro conn; rfl) c)
            exact Option.some.inj h ▸ (hreturned (fun _ => hreturns) _).inbox_pop hinbox (by simp)
          · exact Option.some.inj h ▸ World.inbox_pop hinbox
        · rename_i hrun
          exact Option.some.inj h ▸
            (hreturned (fun h => absurd h hrun) _).inbox_pop hinbox (by simp)
      · cases h
    · cases h

/-- `_authenticate` takes the first frame of the inbox. -/
theorem authReply_takes (h : step cfg w (.authReply τ) = some w') :
    ∃ c deadline f, w.opening? τ = some (c, .awaitingReply deadline) ∧
      ∀ c', w.inbox c' = (if c = c' then [f] else []) ++ w'.inbox c' := by
  have hact : Acts w (.authReply τ) τ := .task rfl
  obtain ⟨c, stage, hopening, hopens⟩ := openStep_cases rfl (step_guarded h)
  cases hopens with
  | raised _ hne => exact absurd rfl hne
  | @refused deadline f inbox hawaiting hinbox hraises =>
    exact ⟨c, deadline, f, hawaiting,
      Moves.inbox_pop hinbox (Moves.refused hact hawaiting hraises) (by simp)⟩
  | @accepted f inbox hinbox hreturns =>
    obtain ⟨deadline, hawaiting⟩ := hreturns.stage
    exact ⟨c, deadline, f, hawaiting,
      Moves.inbox_pop hinbox (Moves.accepted hact hinbox hreturns) (by simp)⟩

/-- In every step, what is taken from an inbox and what is left of it is what was in it and
what arrived. -/
theorem inbox_step (hlinked : Linked w) (h : step cfg w e = some w') (c : ℕ) :
    (taken c w e).toList ++ w'.inbox c = w.inbox c ++ (arrived c w e).toList := by
  have hmoves := step_moves hlinked h
  cases e with
  | frame c' f =>
    simp only [step] at h
    split at h
    · rename_i hlive
      obtain rfl := Option.some.inj h
      by_cases hc : c' = c
      · subst hc
        cases hconn : w.conns[c']? with
        | none => simp [World.sock, hconn] at hlive
        | some conn => simp [taken, arrived, World.inbox, hconn]
      · simp [taken, arrived, World.inbox, hc]
    · cases h
  | recv σ =>
    obtain ⟨attempt, c', f, hb, htakes⟩ := recv_takes h
    have hhead := htakes c
    by_cases hc : c' = c
    · simp [taken, arrived, hb, Body.reads, hc, hhead]
    · simp [taken, arrived, hb, Body.reads, hc, hhead]
  | authReply τ =>
    obtain ⟨c', deadline, f, hopening, htakes⟩ := authReply_takes h
    have hhead := htakes c
    have hreads := World.reads_of_opening hopening c
    by_cases hc : c' = c
    · simp [taken, arrived, hreads, hc, hhead]
    · simp [taken, arrived, hreads, hc, hhead]
  | _ =>
    have hsame := hmoves.inbox_eq (by simp) (.inr (by simp)) c
    simp [taken, arrived, hsame]

/-- In every run, the frames taken from a connection and those left in its inbox are the frames
that arrived on it, in order. -/
theorem inbox_of_run {ok : World → Event → Prop} {es : List Event}
    (hrun : Transition.Run (step cfg) ok World.init es w) (c : ℕ) :
    Transition.outputs (step cfg) (taken c) World.init es ++ w.inbox c =
      Transition.outputs (step cfg) (arrived c) World.init es := by
  induction hrun with
  | nil => simp [Transition.outputs, World.inbox, World.init]
  | snoc hfirst _ he ih =>
    have hstep := inbox_step (sound_of_run hfirst).linked he c
    rw [hfirst.outputs_snoc he, hfirst.outputs_snoc he, List.append_assoc, hstep,
      ← List.append_assoc, ih]

end ProxyClient.Websocket
