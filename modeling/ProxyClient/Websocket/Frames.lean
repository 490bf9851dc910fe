import ProxyClient.Websocket.Reachable

/-!
# The way of a frame through the client

A frame arrives in the inbox of a connection, a supervise task takes it in hand, and the
dispatch offers it to `resolve`, which may settle a future with it. A property that every
arriving frame has, and that no later step takes away, therefore holds of every frame
anywhere in the client.
-/

namespace ProxyClient.Websocket

variable {cfg : Config} {w₀ w w' : World} {e : Event}

/-- The frame that arrives in a step, if one does. -/
def Event.arrival : Event → Option Inbound
  | .frame _ f => some f
  | _ => none

/-- The frame that a supervise task has in hand. -/
def Body.hand : Body → Option Inbound
  | .supervise _ (.inCallback _ f _) => some f
  | .supervise _ (.inCallbackCall _ f _ _) => some f
  | _ => none

/-- Going on without a call, a task keeps its frame or lays it down. -/
theorem Goes.hand {τ : ℕ} {b b' : Body} (h : Goes cfg w₀ e w τ b b') :
    b'.hand = b.hand ∨ b'.hand = none := by
  cases h with
  | handle => exact .inl rfl
  | recancel => exact .inl rfl
  | _ => exact .inr rfl

/-- So it does when it begins to await a call. -/
theorem Calls.hand {τ k : ℕ} {call : Call} {b b' : Body} (h : Calls w₀ w τ k call b b') :
    b'.hand = b.hand ∨ b'.hand = none := by
  cases h with
  | callback => exact .inl rfl
  | _ => exact .inr rfl

/-- And when the call has ended. -/
theorem Resumes.hand {τ k : ℕ} {outcome : Outcome} {b b' : Body}
    (h : Resumes τ k outcome b b') : b'.hand = b.hand ∨ b'.hand = none := by
  cases h with
  | callback => exact .inl rfl
  | _ => exact .inr rfl

/-- A frame that arrived did so before the move or in this step. -/
theorem Alters.received {c : ℕ} {g : Connection → Connection} (h : Alters w₀ e w c g)
    {conn : Connection} {f : Inbound} (hf : f ∈ (g conn).received) :
    f ∈ conn.received ∨ e = .frame c f := by
  cases h with
  | @arrive f' he =>
    rw [Connection.received_receive] at hf
    rcases List.mem_append.mp hf with hold | hnew
    · exact .inl hold
    · exact .inr (List.mem_singleton.mp hnew ▸ he)
  | beginClose =>
    unfold Connection.beginClose at hf
    split at hf <;> exact .inl hf
  | endClose =>
    unfold Connection.endClose at hf
    split at hf <;> exact .inl hf
  | connect =>
    rw [Connection.received_write] at hf
    exact .inl hf
  | message =>
    rw [Connection.received_write] at hf
    exact .inl hf
  | _ => exact .inl hf

/-- A move adds a frame to what a connection has received only when the frame arrives on it. -/
theorem Move.received (h : Move cfg w₀ e w w') {c : ℕ} {conn' : Connection} {f : Inbound}
    (hconn' : w'.conns[c]? = some conn') (hf : f ∈ conn'.received) :
    (∃ conn, w.conns[c]? = some conn ∧ f ∈ conn.received) ∨ e = .frame c f := by
  rcases h.conn_cases hconn' with hold | ⟨g, conn, halters, hold, rfl⟩ |
    ⟨k, frame, conn, hold, rfl, -⟩ | ⟨-, rfl⟩
  · exact .inl ⟨conn', hold, hf⟩
  · exact (halters.received hf).imp_left (fun hin => ⟨conn, hold, hin⟩)
  · rw [Connection.received_write] at hf
    exact .inl ⟨conn, hold, hf⟩
  · cases hf

/-- So does a step. -/
theorem Moves.received (h : Moves cfg w₀ e w₀ w) {c : ℕ} {conn' : Connection} {f : Inbound}
    (hconn' : w.conns[c]? = some conn') (hf : f ∈ conn'.received) :
    (∃ conn, w₀.conns[c]? = some conn ∧ f ∈ conn.received) ∨ e = .frame c f := by
  induction h generalizing conn' with
  | refl => exact .inl ⟨conn', hconn', hf⟩
  | tail _ hlast ih =>
    rcases hlast.received hconn' hf with ⟨conn, hconn, hin⟩ | he
    · exact ih hconn hin
    · exact .inr he

/-- A frame in an inbox was there before or has just arrived. -/
theorem Alters.inbox {c : ℕ} {g : Connection → Connection} (h : Alters w₀ e w c g)
    {conn : Connection} {f : Inbound} (hconn : w.conns[c]? = some conn)
    (hf : f ∈ (g conn).inbox) : f ∈ conn.inbox ∨ f ∈ e.arrival := by
  cases h with
  | arrive he =>
    rcases List.mem_append.mp hf with h | h
    · exact .inl h
    · rw [List.mem_singleton.mp h, he]
      exact .inr rfl
  | pop _ _ hinbox =>
    simp only [hconn, Option.map_some, Option.some.injEq] at hinbox
    rw [hinbox]
    exact .inl (List.mem_cons_of_mem _ hf)
  | beginClose =>
    unfold Connection.beginClose at hf
    split at hf <;> exact .inl hf
  | endClose =>
    unfold Connection.endClose at hf
    split at hf <;> exact .inl hf
  | connect =>
    rw [Connection.inbox_write] at hf
    exact .inl hf
  | message =>
    rw [Connection.inbox_write] at hf
    exact .inl hf
  | _ => exact .inl hf

/-- A frame in an inbox was in it before the move or arrives in the step. -/
theorem Move.inbox (h : Move cfg w₀ e w w') {c : ℕ} {conn' : Connection} {f : Inbound}
    (hconn' : w'.conns[c]? = some conn') (hf : f ∈ conn'.inbox) :
    (∃ conn, w.conns[c]? = some conn ∧ f ∈ conn.inbox) ∨ f ∈ e.arrival := by
  rcases h.conn_cases hconn' with hold | ⟨g, conn, halters, hold, rfl⟩ |
    ⟨k, frame, conn, hold, rfl, -⟩ | ⟨-, rfl⟩
  · exact .inl ⟨conn', hold, hf⟩
  · rcases halters.inbox hold hf with hin | harrives
    · exact .inl ⟨conn, hold, hin⟩
    · exact .inr harrives
  · rw [Connection.inbox_write] at hf
    exact .inl ⟨conn, hold, hf⟩
  · cases hf

/-- A frame in hand was in hand before the move or was the first of an inbox. -/
theorem Move.hand (h : Move cfg w₀ e w w') {τ : ℕ} {f : Inbound}
    (hf : (w'.body τ).hand = some f) :
    (w.body τ).hand = some f ∨
      ∃ (c : ℕ) (conn : Connection), w.conns[c]? = some conn ∧ f ∈ conn.inbox := by
  have kept {b : Body} (hb : b.hand = (w.body τ).hand ∨ b.hand = none) (hf : b.hand = some f) :
      (w.body τ).hand = some f := by
    rcases hb with hb | hb
    · rw [← hb, hf]
    · rw [hb] at hf
      cases hf
  have hmoved := h.moved τ
  generalize w'.body τ = b at hmoved hf
  cases hmoved with
  | same hb => exact .inl (hb ▸ hf)
  | goes _ hb hgo => exact .inl (kept (hb ▸ hgo.hand) hf)
  | takes _ _ hinbox =>
    cases hf
    obtain ⟨conn, hconn, hin⟩ := Option.map_eq_some_iff.mp hinbox
    exact .inr ⟨_, conn, hconn, by rw [hin]; exact List.mem_cons_self⟩
  | reconnects => cases hf
  | calls _ hb hcalls => exact .inl (kept (hb ▸ hcalls.hand) hf)
  | resumes _ _ _ _ _ hb hresumes => exact .inl (kept (hb ▸ hresumes.hand) hf)
  | begins _ hfresh =>
    unfold Body.fresh at hfresh
    split at hfresh
    · cases hf
    · cases hf
    · cases hf
    · cases hf
    · cases hfresh

/-- A frame that was offered to `resolve` had been so before or is in this step. -/
theorem Alters.resolved {c : ℕ} {g : Connection → Connection} (h : Alters w₀ e w c g)
    {conn : Connection} {f : Inbound} (hf : f ∈ (g conn).resolved) :
    f ∈ conn.resolved ∨ ∃ σ, Resolves w₀ e σ c f := by
  cases h with
  | resolve hres =>
    rcases List.mem_append.mp hf with hold | hnew
    · exact .inl hold
    · exact .inr ⟨_, List.mem_singleton.mp hnew ▸ hres⟩
  | beginClose =>
    unfold Connection.beginClose at hf
    split at hf <;> exact .inl hf
  | endClose =>
    unfold Connection.endClose at hf
    split at hf <;> exact .inl hf
  | connect =>
    rw [Connection.resolved_write] at hf
    exact .inl hf
  | message =>
    rw [Connection.resolved_write] at hf
    exact .inl hf
  | _ => exact .inl hf

/-- A frame was offered to `resolve` before the move or is resolved in the step. -/
theorem Move.resolved (h : Move cfg w₀ e w w') {c : ℕ} {conn' : Connection} {f : Inbound}
    (hconn' : w'.conns[c]? = some conn') (hf : f ∈ conn'.resolved) :
    (∃ conn, w.conns[c]? = some conn ∧ f ∈ conn.resolved) ∨ ∃ σ, Resolves w₀ e σ c f := by
  rcases h.conn_cases hconn' with hold | ⟨g, conn, halters, hold, rfl⟩ |
    ⟨k, frame, conn, hold, rfl, -⟩ | ⟨-, rfl⟩
  · exact .inl ⟨conn', hold, hf⟩
  · rcases halters.resolved hf with hin | hres
    · exact .inl ⟨conn, hold, hin⟩
    · exact .inr hres
  · rw [Connection.resolved_write] at hf
    exact .inl ⟨conn, hold, hf⟩
  · cases hf

/-- A step adds a frame to what was resolved only when the dispatch resolves it. -/
theorem Moves.resolved (h : Moves cfg w₀ e w₀ w) {c : ℕ} {conn' : Connection} {f : Inbound}
    (hconn' : w.conns[c]? = some conn') (hf : f ∈ conn'.resolved) :
    (∃ conn, w₀.conns[c]? = some conn ∧ f ∈ conn.resolved) ∨ ∃ σ, Resolves w₀ e σ c f := by
  induction h generalizing conn' with
  | refl => exact .inl ⟨conn', hconn', hf⟩
  | tail _ hlast ih =>
    rcases hlast.resolved hconn' hf with ⟨conn, hconn, hin⟩ | hres
    · exact ih hconn hin
    · exact .inr hres

/-! ## Properties of all frames -/

/-- Every frame in the client has a property. -/
structure Frames (P : Rpc → Inbound → Prop) (w : World) : Prop where
  received : ∀ {c : ℕ} {conn : Connection} {f : Inbound}, w.conns[c]? = some conn →
    f ∈ conn.received → P w.rpc f
  inbox : ∀ {c : ℕ} {conn : Connection} {f : Inbound}, w.conns[c]? = some conn →
    f ∈ conn.inbox → P w.rpc f
  hand : ∀ {τ : ℕ} {f : Inbound}, (w.body τ).hand = some f → P w.rpc f
  resolved : ∀ {c : ℕ} {conn : Connection} {f : Inbound}, w.conns[c]? = some conn →
    f ∈ conn.resolved → P w.rpc f
  future : ∀ {k : ℕ} {f : Inbound}, w.rpc.future k = some (.result f) → P w.rpc f

namespace Frames

variable {P : Rpc → Inbound → Prop}

/-- A client that has never started holds no frame. -/
theorem init : Frames P World.init where
  received h := by simp [World.init] at h
  inbox h := by simp [World.init] at h
  hand h := by simp [World.init, World.body, Body.hand] at h
  resolved h := by simp [World.init] at h
  future h := by simp [World.init, Rpc.future] at h

/-- Moves keep the property as long as frames that have it arrive. -/
theorem move (hmono : ∀ {r r' f}, r.Extends r' → P r f → P r' f) (hframes₀ : Frames P w₀)
    (hframes : Frames P w) (harrival : ∀ f ∈ e.arrival, P w₀.rpc f)
    (hchain : Moves cfg w₀ e w₀ w) (h : Move cfg w₀ e w w') : Frames P w' := by
  have hextends : w₀.rpc.Extends w'.rpc := hchain.extends.trans h.extends
  have old {f : Inbound} (hf : P w.rpc f) : P w'.rpc f := hmono h.extends hf
  have handled {σ c : ℕ} {f : Inbound} (hres : Resolves w₀ e σ c f) : P w'.rpc f := by
    obtain ⟨a, hb⟩ := hres.body
    have hhand : (w₀.body σ).hand = some f := by rw [hb]; rfl
    exact hmono hextends (hframes₀.hand hhand)
  constructor
  case received =>
    intro c conn' f hconn' hf
    rcases h.received hconn' hf with ⟨conn, hconn, hin⟩ | he
    · exact old (hframes.received hconn hin)
    · exact hmono hextends (harrival f (by rw [he]; rfl))
  case inbox =>
    intro c conn' f hconn' hf
    rcases h.inbox hconn' hf with ⟨conn, hconn, hin⟩ | harrives
    · exact old (hframes.inbox hconn hin)
    · exact hmono hextends (harrival f harrives)
  case hand =>
    intro τ f hf
    rcases h.hand hf with hold | ⟨c, conn, hconn, hin⟩
    · exact old (hframes.hand hold)
    · exact old (hframes.inbox hconn hin)
  case resolved =>
    intro c conn' f hconn' hf
    rcases h.resolved hconn' hf with ⟨conn, hconn, hin⟩ | ⟨σ, hres⟩
    · exact old (hframes.resolved hconn hin)
    · exact handled hres
  case future =>
    intro k f hf
    rcases h.future_result hf with hold | ⟨⟨σ, c, hres⟩, -, -⟩
    · exact old (hframes.future hold)
    · exact handled hres

end Frames

/-- In every run in which all arriving frames have a property, all frames have it. -/
theorem frames_of_run {P : Rpc → Inbound → Prop} {ok : World → Event → Prop} {es : List Event}
    (hrun : Transition.Run (step cfg) ok World.init es w)
    (hmono : ∀ {r r' f}, r.Extends r' → P r f → P r' f)
    (harrival : ∀ w e, ok w e → ∀ f ∈ e.arrival, P w.rpc f) : Frames P w :=
  invariant_of_moves hrun .init
    (fun hok _ hframes₀ _ hframes hchain h =>
      hframes₀.move hmono hframes (harrival _ _ hok) hchain h)

end ProxyClient.Websocket
