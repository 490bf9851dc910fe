import ProxyClient.Run
import ProxyClient.Websocket.Correlator
import ProxyClient.Websocket.Decompose

/-!
# What holds in every reachable state

Three invariants hold in every run of a client, whatever the server and the application do:
calls and the tasks that await them belong together, the correlator is in order, and an open
socket is attached to its connection. Every further invariant is proved by
`invariant_of_moves`, move by move.
-/

namespace ProxyClient.Websocket

open Relation

variable {cfg : Config} {w₀ w w' : World} {e : Event} {d : Dialect}

/-! ## The correlator inside the client -/

/-- Whatever `_pump` returned with, the futures fail with a `ConnectionError`. -/
@[simp] theorem asConnectionError_isConnectionError (exc : Option Exc) :
    (World.asConnectionError exc).isConnectionError = true := by
  unfold World.asConnectionError
  split
  · rfl
  · split
    · assumption
    · rfl

/-- A call returns only the frame that settled its future. -/
theorem Ends.future_of_reply {k : ℕ} {call : Call} {outcome : Outcome} {f : Inbound}
    (h : Ends w e k call outcome) (hf : outcome = .reply f) :
    w.rpc.future k = some (.result f) := by
  cases h with
  | reply _ _ hfuture => exact (Outcome.reply.inj hf) ▸ hfuture
  | _ => cases hf

/-- A call ends with `TimeoutError` only when its timer fires while its future is pending. -/
theorem Ends.timedOut {k : ℕ} {call : Call} (h : Ends w e k call (.raised .timeoutError))
    (hinv : w.rpc.Inv d) :
    e = .timeout k ∧ (∃ deadline, call.phase = .waiting deadline) ∧
      w.rpc.future k = some .pending := by
  cases h with
  | failed _ _ hfuture => cases hinv.failed hfuture
  | timeout he hphase _ hpending => exact ⟨he, ⟨_, hphase⟩, hpending⟩

/-- The client works its correlator by the correlator's own moves. -/
theorem Move.rpc (h : Move cfg w₀ e w w') : Rpc.Moves cfg.dialect w.rpc w'.rpc := by
  have register {call : Call} (hframed : Framed cfg w call) :
      Rpc.Move cfg.dialect w.rpc ((w.rpc.draw call.op).register call) :=
    .register hframed.frame hframed.phase
  cases h with
  | draw op => exact .single (.draw op)
  | launch _ hframed => exact .single (register hframed)
  | call _ hframed => exact .single (register hframed)
  | @refuse call _ hframed =>
    have hlast : ((w.rpc.draw call.op).register call).calls[w.rpc.calls.length]? = some call := by
      simp [Rpc.register]
    exact (ReflTransGen.single (register hframed)).tail (.finish hlast (by simp))
  | await hcall hphase => exact .single (.await hcall hphase)
  | endCall hrpc hcall _ hends =>
    rw [rpc_endCall]
    refine .single (.finish hcall ?_)
    intro f hf
    rw [hrpc]
    exact hends.future_of_reply hf
  | resume _ hrpc hcall _ hends _ =>
    rw [World.setBody_rpc, rpc_endCall]
    refine .single (.finish hcall ?_)
    intro f hf
    rw [hrpc]
    exact hends.future_of_reply hf
  | settle _ _ _ hslot => exact .single (.settle hslot)
  | failAll exc => exact .single (.failAll (asConnectionError_isConnectionError exc))
  | cancelAll => exact .single .cancelAll
  | _ => exact .refl

/-- A chain of moves is a chain of moves of the correlator. -/
theorem Moves.rpc (h : Moves cfg w₀ e w w') : Rpc.Moves cfg.dialect w.rpc w'.rpc := by
  induction h with
  | refl => exact .refl
  | tail _ hlast ih => exact ih.trans hlast.rpc

/-- Calls are added and never forgotten, by any move of the client. -/
theorem Move.extends (h : Move cfg w₀ e w w') : w.rpc.Extends w'.rpc := h.rpc.extends

/-- So it loses no call. -/
theorem Moves.extends (h : Moves cfg w₀ e w w') : w.rpc.Extends w'.rpc := h.rpc.extends

/-- A future that has an outcome keeps it. -/
theorem Moves.future_done (h : Moves cfg w₀ e w w') {k : ℕ} {f : Future Inbound Exc}
    (hf : w.rpc.future k = some f) (hdone : f.done = true) : w'.rpc.future k = some f :=
  h.rpc.future_done hf hdone

/-- A call that a task awaits is of the operation that its owner makes. -/
theorem Calls.fitting {τ k : ℕ} {call : Call} {b b' : Body}
    (h : Calls w₀ w τ k call b b') : Fitting call := by
  cases h with
  | callback howner => constructor <;> simp [howner]
  | replay howner hop => exact ⟨fun _ _ => ⟨_, _, hop⟩, fun _ h => by rw [howner] at h; cases h⟩
  | heartbeat howner hop => exact ⟨fun _ h => (by rw [howner] at h; cases h), fun _ _ => hop⟩

/-- How a call reads after a move that takes one correlator to another. -/
inductive Continues (w₀ : World) (e : Event) (r r' : Rpc) (k : ℕ) (call : Call) : Call → Prop
  | same : Continues w₀ e r r' k call call
  | await {deadline : ℚ} : call.phase = .sending →
      Continues w₀ e r r' k call { call with phase := .waiting deadline }
  | ends {outcome : Outcome} : Ends w₀ e k call outcome → r = w₀.rpc →
      r' = r.finish k outcome → Continues w₀ e r r' k call { call with phase := .ended outcome }

/-- A call was there before a move, or the move begins it. -/
theorem Move.call_cases (h : Move cfg w₀ e w w') {k : ℕ} {call : Call}
    (hcall : w'.rpc.calls[k]? = some call) :
    (∃ call₀, w.rpc.calls[k]? = some call₀ ∧ Continues w₀ e w.rpc w'.rpc k call₀ call) ∨
      (k = w.rpc.calls.length ∧ ∃ call₀, Framed cfg w call₀ ∧ Fitting call₀ ∧
        (call = call₀ ∨ call = { call₀ with phase := .ended (.raised (.py .runtimeError)) })) := by
  have begun {new : Call} (hframed : Framed cfg w new) (hfitting : Fitting new)
      (h : ((w.rpc.draw new.op).register new).calls[k]? = some call) :
      (∃ call₀, w.rpc.calls[k]? = some call₀ ∧ Continues w₀ e w.rpc w'.rpc k call₀ call) ∨
        (k = w.rpc.calls.length ∧ ∃ call₀, Framed cfg w call₀ ∧ Fitting call₀ ∧
          (call = call₀ ∨
            call = { call₀ with phase := .ended (.raised (.py .runtimeError)) })) := by
    simp only [Rpc.register, Rpc.calls_draw] at h
    rcases Rpc.getElem?_concat_cases h with hold | ⟨hk, rfl⟩
    · exact .inl ⟨call, hold, .same⟩
    · exact .inr ⟨hk, call, hframed, hfitting, .inl rfl⟩
  have ended {j : ℕ} {old : Call} {outcome : Outcome} (hrpc : w.rpc = w₀.rpc)
      (hj : w.rpc.calls[j]? = some old) (hends : Ends w₀ e j old outcome)
      (h : w'.rpc = w.rpc.finish j outcome) :
      ∃ call₀, w.rpc.calls[k]? = some call₀ ∧ Continues w₀ e w.rpc w'.rpc k call₀ call := by
    have hk := hcall
    simp only [h, Rpc.finish, hj] at hk
    rcases Rpc.getElem?_modify_cases hk with ⟨-, hold⟩ | ⟨rfl, c, hc, rfl⟩
    · exact ⟨call, hold, .same⟩
    · obtain rfl := Option.some.inj (hc.symm.trans hj)
      exact ⟨c, hc, .ends hends hrpc h⟩
  cases h with
  | draw op => exact .inl ⟨call, by simpa using hcall, .same⟩
  | launch _ hframed _ _ howner => exact begun hframed (by constructor <;> simp [howner]) hcall
  | call _ hframed _ _ hcalls => exact begun hframed hcalls.fitting hcall
  | @refuse new _ hframed _ hfitting _ =>
    simp only [World.refused, Rpc.finish, Rpc.register, Rpc.calls_draw,
      List.getElem?_concat_length] at hcall
    rcases Rpc.getElem?_modify_cases hcall with ⟨hne, hold⟩ | ⟨hk, c, hc, rfl⟩
    · rcases Rpc.getElem?_concat_cases hold with hold | ⟨hk, -⟩
      · exact .inl ⟨call, hold, .same⟩
      · exact absurd hk hne
    · simp only [List.getElem?_concat_length, Option.some.injEq] at hc
      subst hc
      exact .inr ⟨hk, new, hframed, hfitting, .inr rfl⟩
  | @await j deadline old hj hphase =>
    rcases Rpc.getElem?_modify_cases hcall with ⟨-, hold⟩ | ⟨rfl, c, hc, rfl⟩
    · exact .inl ⟨call, hold, .same⟩
    · obtain rfl := Option.some.inj (hc.symm.trans hj)
      exact .inl ⟨c, hc, .await hphase⟩
  | endCall hrpc hj _ hends => exact .inl (ended hrpc hj hends (rpc_endCall cfg w _ _))
  | resume _ hrpc hj _ hends _ => exact .inl (ended hrpc hj hends (rpc_endCall cfg w _ _))
  | _ => exact .inl ⟨call, hcall, .same⟩

/-- A frame is given to the waiter in the slot that `resolve` looks it up in. -/
structure Settles (cfg : Config) (w : World) (e : Event) (k : ℕ) (f : Inbound) : Prop where
  /-- The step ends `on_message` for the frame. -/
  resolves : ∃ σ c, Resolves w e σ c f
  /-- The waiter is registered in the slot of the frame. -/
  slot : ∃ key, cfg.dialect.slotOf f = some key ∧ w.rpc.pending.futures.lookup key = some k
  pending : w.rpc.future k = some .pending

/-- Only the dispatch of a frame gives a future a result. -/
theorem Move.future_result (h : Move cfg w₀ e w w') {k : ℕ} {f : Inbound}
    (hf : w'.rpc.future k = some (.result f)) :
    w.rpc.future k = some (.result f) ∨ Settles cfg w₀ e k f := by
  cases h with
  | draw op => exact .inl (by simpa [Rpc.future] using hf)
  | launch =>
    rcases Rpc.future_register hf with h | ⟨-, h⟩
    · exact .inl h
    · cases h
  | call =>
    rcases Rpc.future_register hf with h | ⟨-, h⟩
    · exact .inl h
    · cases h
  | refuse =>
    rcases Rpc.future_finish hf with h | ⟨-, -, h⟩
    · rcases Rpc.future_register h with h | ⟨-, h⟩
      · exact .inl h
      · cases h
    · cases h
  | endCall =>
    rw [rpc_endCall] at hf
    rcases Rpc.future_finish hf with h | ⟨-, -, h⟩
    · exact .inl h
    · cases h
  | resume =>
    rw [World.setBody_rpc, rpc_endCall] at hf
    rcases Rpc.future_finish hf with h | ⟨-, -, h⟩
    · exact .inl h
    · cases h
  | @settle σ c f' key hres hpending _ hslot =>
    simp only [Rpc.future, PendingRequests.settle] at hf
    split at hf
    · exact .inl hf
    · rename_i i hi
      rcases Future.getElem?_complete_cases hf with h | ⟨hki, h, hout⟩
      · exact .inl h
      · cases hout
        rw [hpending] at hi h
        exact .inr ⟨⟨σ, c, hres⟩, ⟨key, hslot, hki ▸ hi⟩, h⟩
  | failAll =>
    rcases Future.getElem?_completeAll_cases hf with h | ⟨-, h⟩
    · exact .inl h
    · cases h
  | cancelAll =>
    rcases Future.getElem?_completeAll_cases hf with h | ⟨-, h⟩
    · exact .inl h
    · cases h
  | _ => exact .inl hf

/-- The futures that a step gives a result are those of `Settles`. -/
theorem Moves.future_result (h : Moves cfg w₀ e w₀ w) {k : ℕ} {f : Inbound}
    (hf : w.rpc.future k = some (.result f)) :
    w₀.rpc.future k = some (.result f) ∨ Settles cfg w₀ e k f := by
  induction h with
  | refl => exact .inl hf
  | tail _ hlast ih =>
    rcases hlast.future_result hf with h | h
    · exact ih h
    · exact .inr h

/-- One step settles at most one waiter, with one frame. -/
theorem Settles.unique {i j : ℕ} {f g : Inbound} (h : Settles cfg w e i f)
    (h' : Settles cfg w e j g) : i = j ∧ f = g := by
  obtain ⟨⟨σ, c, hev, a, hb⟩, ⟨key, hslot, hlookup⟩, -⟩ := h
  obtain ⟨⟨σ', c', hev', a', hb'⟩, ⟨key', hslot', hlookup'⟩, -⟩ := h'
  have hσ : σ = σ' := by
    rcases hev with hev | hev <;> rcases hev' with hev' | hev' <;>
      rw [hev] at hev' <;> cases hev' <;> rfl
  subst hσ
  rw [hb] at hb'
  cases hb'
  rw [hslot] at hslot'
  cases hslot'
  rw [hlookup] at hlookup'
  exact ⟨Option.some.inj hlookup', rfl⟩

/-- The timeout of a call cancels its future. -/
theorem Rpc.future_finish_of_waiting {r : Rpc} {k : ℕ} {call : Call} {outcome : Outcome}
    {deadline : ℚ} (hcall : r.calls[k]? = some call) (hphase : call.phase = .waiting deadline)
    (hpending : r.future k = some .pending) : (r.finish k outcome).future k = some .cancelled := by
  simp only [Rpc.finish, hcall, Rpc.future, Rpc.heap_release, Rpc.abandon, hphase]
  exact Future.getElem?_complete_of_pending .cancelled hpending

/-! ## Calls and the tasks that await them -/

/-- A supervise task that enters the pump awaits no call. -/
theorem Enters.awaits {σ : ℕ} {b : Body} (h : Enters w₀ e w σ b) : b.awaits σ = none := by
  cases h <;> rfl

/-- Nor does one that is about to send the next entry of its replay. -/
theorem Replays.awaits {σ : ℕ} {b : Body} {entry : Entry} {rest : List Entry}
    (h : Replays w b entry rest) : b.awaits σ = none := by
  cases h <;> rfl

/-- A task goes on without a call from one suspension point outside of calls to another. -/
theorem Goes.awaits {τ : ℕ} {b b' : Body} (h : Goes cfg w₀ e w τ b b') :
    b.awaits τ = none ∧ b'.awaits τ = none := by
  cases h with
  | finish hn => exact ⟨hn, rfl⟩
  | backOff hn => exact ⟨hn, rfl⟩
  | enter henter => exact ⟨henter.awaits, rfl⟩
  | gap hreplays => exact ⟨hreplays.awaits, rfl⟩
  | sleep hn => exact ⟨hn, rfl⟩
  | rest hn => exact ⟨hn, rfl⟩
  | stop hb =>
    rcases hb with ⟨pc, rfl⟩ | ⟨rfl, -⟩ <;> exact ⟨rfl, rfl⟩
  | _ => exact ⟨rfl, rfl⟩

/-- A task that begins to await a call becomes the owner of that call. -/
theorem Calls.awaits {τ k : ℕ} {call : Call} {b b' : Body} (h : Calls w₀ w τ k call b b') :
    b.awaits τ = none ∧ b'.awaits τ = some (call.owner, k) ∧ call.owner.task = some τ := by
  cases h with
  | callback howner => rw [howner]; exact ⟨rfl, rfl, rfl⟩
  | replay howner _ hreplays => rw [howner]; exact ⟨hreplays.awaits, rfl, rfl⟩
  | heartbeat howner => rw [howner]; exact ⟨rfl, rfl, rfl⟩

/-- A replay is sent by a task that has not ended. -/
theorem Replays.ne_finished {b : Body} {entry : Entry} {rest : List Entry}
    (h : Replays w b entry rest) : b ≠ .finished := by
  cases h <;> simp

/-- So is every call that a task awaits. -/
theorem Calls.ne_finished {τ k : ℕ} {call : Call} {b b' : Body}
    (h : Calls w₀ w τ k call b b') : b ≠ .finished := by
  cases h with
  | replay _ _ hreplays => exact hreplays.ne_finished
  | _ => simp

/-- A task that goes on after a call was suspended in it, and is no longer. -/
theorem Resumes.awaits {τ k : ℕ} {outcome : Outcome} {b b' : Body}
    (h : Resumes τ k outcome b b') :
    (∃ owner, b.awaits τ = some (owner, k)) ∧ b'.awaits τ = none := by
  cases h with
  | finish hawaits => exact ⟨⟨_, hawaits⟩, rfl⟩
  | _ => exact ⟨⟨_, rfl⟩, rfl⟩

namespace Linked

/-- There is neither a call nor a task that awaits one. -/
theorem init : Linked World.init where
  awaited h := by simp [World.init] at h
  calls h := by simp [World.init, World.body, Body.awaits] at h

/-- Moves that begin and end no call and change no task that awaits one. -/
theorem congr (hlinked : Linked w) (hcalls : w'.rpc.calls = w.rpc.calls)
    (hawaits : ∀ τ, (w'.body τ).awaits τ = (w.body τ).awaits τ) : Linked w' where
  awaited hcall hended htask := by
    rw [hcalls] at hcall
    rw [hawaits]
    exact hlinked.awaited hcall hended htask
  calls h := by
    rw [hawaits] at h
    rw [hcalls]
    exact hlinked.calls h

/-- A task moves from a suspension point outside of calls to another. -/
theorem setBody (hlinked : Linked w) (hcalls : w'.rpc.calls = w.rpc.calls) {τ : ℕ} {b : Body}
    (hbody : ∀ τ', w'.body τ' = (w.setBody τ b).body τ') (hold : (w.body τ).awaits τ = none)
    (hnew : b.awaits τ = none) : Linked w' := by
  apply hlinked.congr hcalls
  intro τ'
  rw [hbody]
  rcases World.body_setBody_cases (w := w) (τ := τ) (b := b) τ' with ⟨rfl, hb, -⟩ | hb
  · rw [hb, hnew, hold]
  · rw [hb]

/-- A task is created, and it awaits no call yet. -/
theorem spawn (hlinked : Linked w) {b : Body} (hcalls : w'.rpc.calls = w.rpc.calls)
    (hbody : ∀ τ, w'.body τ = (w.spawn b).body τ) (hnew : ∀ τ, b.awaits τ = none) :
    Linked w' := by
  apply hlinked.congr hcalls
  intro τ
  rw [hbody]
  by_cases hτ : τ = w.tasks.length
  · have hold : w.body τ = .finished := by
      by_contra hne
      have hlt := World.lt_of_body_ne hne
      omega
    rw [hτ, World.body_spawn_self, hnew, ← hτ, hold]
    rfl
  · rw [World.body_spawn_of_ne b hτ]

/-- A call begins, and the task that awaits it is suspended in it. -/
theorem begin (hlinked : Linked w) {call : Call} (hphase : call.phase.isEnded = false)
    (hcalls : w'.rpc.calls = w.rpc.calls ++ [call])
    (hself : ∀ {τ}, call.owner.task = some τ →
      (w.body τ).awaits τ = none ∧
        (w'.body τ).awaits τ = some (call.owner, w.rpc.calls.length))
    (hother : ∀ τ, call.owner.task ≠ some τ → w'.body τ = w.body τ) : Linked w' where
  awaited {k c τ} hcall hended htask := by
    rw [hcalls] at hcall
    rcases Rpc.getElem?_concat_cases hcall with hold | ⟨rfl, rfl⟩
    · have hτ : call.owner.task ≠ some τ := by
        intro heq
        have hnone := (hself heq).1
        rw [hlinked.awaited hold hended htask] at hnone
        cases hnone
      rw [hother τ hτ]
      exact hlinked.awaited hold hended htask
    · exact (hself htask).2
  calls {τ owner k} h := by
    rw [hcalls]
    by_cases hτ : call.owner.task = some τ
    · rw [(hself hτ).2] at h
      obtain ⟨rfl, rfl⟩ := Prod.mk.inj (Option.some.inj h)
      exact ⟨call, by simp, rfl, hphase⟩
    · rw [hother τ hτ] at h
      obtain ⟨c, hc, howner, hended⟩ := hlinked.calls h
      have hlt := (List.getElem?_eq_some_iff.mp hc).1
      exact ⟨c, by rw [List.getElem?_append_left hlt, hc], howner, hended⟩

/-- A call ends, and the task that awaits it goes on. -/
theorem finish (hlinked : Linked w) {k : ℕ} {call : Call} {outcome : Outcome}
    (hcall : w.rpc.calls[k]? = some call)
    (hcalls : w'.rpc.calls =
      w.rpc.calls.modify k (fun call => { call with phase := .ended outcome }))
    (hself : ∀ {τ}, call.owner.task = some τ →
      (∃ owner, (w.body τ).awaits τ = some (owner, k)) ∧ (w'.body τ).awaits τ = none)
    (hother : ∀ τ, call.owner.task ≠ some τ → w'.body τ = w.body τ) : Linked w' where
  awaited {i c τ} hi hended htask := by
    rw [hcalls] at hi
    obtain ⟨c₀, hc₀, -, hne, heq⟩ := Rpc.phase_cases hi
    have hik : i ≠ k := by
      intro hik
      rw [heq hik] at hended
      cases hended
    obtain rfl := hne hik
    have hawaits := hlinked.awaited hc₀ hended htask
    by_cases hτ : call.owner.task = some τ
    · obtain ⟨owner, hk⟩ := (hself hτ).1
      rw [hawaits] at hk
      exact absurd (Prod.mk.inj (Option.some.inj hk)).2 hik
    · rw [hother τ hτ, hawaits]
  calls {τ owner i} h := by
    by_cases hτ : call.owner.task = some τ
    · rw [(hself hτ).2] at h
      cases h
    · rw [hother τ hτ] at h
      obtain ⟨c, hc, howner, hended⟩ := hlinked.calls h
      have hik : i ≠ k := by
        rintro rfl
        obtain rfl := Option.some.inj (hc.symm.trans hcall)
        rcases Body.awaits_cases h with ⟨ho, -⟩ | ⟨ho, -⟩ | ⟨ho, -⟩ <;>
          exact hτ (by rw [howner, ho]; rfl)
      exact ⟨c, by rw [hcalls]; simpa [Ne.symm hik] using hc, howner, hended⟩

/-- Calls that were added have ended, and the others have ended if and only if they had. -/
theorem phases (hlinked : Linked w)
    (hbody : ∀ τ, w'.body τ = w.body τ)
    (hold : ∀ {k : ℕ} {c : Call}, w'.rpc.calls[k]? = some c → c.phase.isEnded = false →
      ∃ c₀ : Call, w.rpc.calls[k]? = some c₀ ∧ c₀.owner = c.owner ∧ c₀.phase.isEnded = false)
    (hnew : ∀ {k : ℕ} {c : Call}, w.rpc.calls[k]? = some c → c.phase.isEnded = false →
      ∃ c' : Call, w'.rpc.calls[k]? = some c' ∧ c'.owner = c.owner ∧ c'.phase.isEnded = false) :
    Linked w' where
  awaited {k c τ} hcall hended htask := by
    obtain ⟨c₀, hc₀, howner, hended₀⟩ := hold hcall hended
    rw [hbody, ← howner]
    exact hlinked.awaited hc₀ hended₀ (howner ▸ htask)
  calls {τ owner k} h := by
    rw [hbody] at h
    obtain ⟨c, hc, howner, hended⟩ := hlinked.calls h
    obtain ⟨c', hc', howner', hended'⟩ := hnew hc hended
    exact ⟨c', hc', howner'.trans howner, hended'⟩

/-- A task begins to await a call, and the two belong together from then on. -/
theorem call (hlinked : Linked w) {τ c : ℕ} {call : Call} {b : Body}
    (hframed : Framed cfg w call) (hcalls : Calls w₀ w τ w.rpc.calls.length call (w.body τ) b) :
    Linked ((w.launched call c).setBody τ b) := by
  obtain ⟨hold, hnew, htask⟩ := hcalls.awaits
  have hlt : τ < w.tasks.length := World.lt_of_body_ne hcalls.ne_finished
  refine hlinked.begin (by rw [hframed.phase]; rfl)
    (by rw [← w.rpc.calls_draw call.op]; rfl) ?_ ?_
  · intro τ' hτ'
    obtain rfl := Option.some.inj (htask.symm.trans hτ')
    refine ⟨hold, ?_⟩
    have hself : ((w.launched call c).setBody τ b).body τ = b := World.body_setBody_self b hlt
    rw [hself, hnew]
  · intro τ' hτ'
    apply World.body_setBody_of_ne b
    rintro rfl
    exact hτ' htask

/-- A call that finds no open connection has ended when the step is over. -/
theorem refuse (hlinked : Linked w) (call : Call) : Linked (w.refused call) := by
  have hcalls : (w.refused call).rpc.calls =
      (w.rpc.calls ++ [call]).modify w.rpc.calls.length
        (fun call => { call with phase := .ended (.raised (.py .runtimeError)) }) := by
    simp [World.refused, Rpc.finish, Rpc.register]
  refine hlinked.phases (fun _ => rfl) ?_ ?_
  · intro k c hk hended
    rw [hcalls] at hk
    obtain ⟨c₀, hc₀, -, hne, heq⟩ := Rpc.phase_cases hk
    have hkne : k ≠ w.rpc.calls.length := by
      intro hkeq
      rw [heq hkeq] at hended
      cases hended
    obtain rfl := hne hkne
    rcases Rpc.getElem?_concat_cases hc₀ with hc | ⟨hkeq, -⟩
    · exact ⟨c, hc, rfl, hended⟩
    · exact absurd hkeq hkne
  · intro k c hk hended
    have hlt := (List.getElem?_eq_some_iff.mp hk).1
    have hkne : w.rpc.calls.length ≠ k := by omega
    refine ⟨c, ?_, rfl, hended⟩
    rw [hcalls]
    simp [hkne, List.getElem?_append_left hlt, hk]

/-- A call whose frame was sent waits for its reply, and its task is still suspended in it. -/
theorem await (hlinked : Linked w) {k : ℕ} {call : Call} {deadline : ℚ}
    (hcall : w.rpc.calls[k]? = some call) (hphase : call.phase = .sending) :
    Linked { w with rpc := w.rpc.await k deadline } := by
  refine hlinked.phases (fun _ => rfl) ?_ ?_
  · intro i c hi hended
    obtain ⟨c₀, hc₀, hc, hne, heq⟩ := Rpc.phase_cases hi
    refine ⟨c₀, hc₀, by rw [hc], ?_⟩
    by_cases hik : i = k
    · subst hik
      obtain rfl := Option.some.inj (hc₀.symm.trans hcall)
      rw [hphase]
      rfl
    · rw [← hne hik]
      exact hended
  · intro i c hi hended
    by_cases hik : i = k
    · subst hik
      exact ⟨{ c with phase := .waiting deadline }, by simp [Rpc.await, hi], rfl, rfl⟩
    · exact ⟨c, by simpa [Rpc.await, Ne.symm hik] using hi, rfl, hended⟩

/-- A call of the application ends, which no task awaits. -/
theorem endCall (hlinked : Linked w) {k : ℕ} {call : Call} {outcome : Outcome}
    (hcall : w.rpc.calls[k]? = some call) (howner : call.owner = .application) :
    Linked (w.endCall cfg k outcome) := by
  have hcalls : (w.endCall cfg k outcome).rpc.calls =
      w.rpc.calls.modify k (fun call => { call with phase := .ended outcome }) := by
    rw [rpc_endCall]
    simp [Rpc.finish, hcall]
  refine hlinked.finish hcall hcalls ?_ (fun _ _ => body_endCall cfg w k outcome _)
  · intro τ hτ
    rw [howner] at hτ
    cases hτ

/-- A call of a task ends, and the task goes on to a suspension point outside of calls. -/
theorem resume (hlinked : Linked w) {τ k : ℕ} {call : Call} {outcome : Outcome} {b : Body}
    (hcall : w.rpc.calls[k]? = some call) (htask : call.owner.task = some τ)
    (hresumes : Resumes τ k outcome (w.body τ) b) :
    Linked ((w.endCall cfg k outcome).setBody τ b) := by
  obtain ⟨⟨owner, hold⟩, hnew⟩ := hresumes.awaits
  have hlt : τ < (w.endCall cfg k outcome).tasks.length := by
    rw [tasks_endCall]
    apply World.lt_of_body_ne
    intro hfinished
    rw [hfinished] at hold
    cases hold
  have hcalls : ((w.endCall cfg k outcome).setBody τ b).rpc.calls =
      w.rpc.calls.modify k (fun call => { call with phase := .ended outcome }) := by
    rw [World.setBody_rpc, rpc_endCall]
    simp [Rpc.finish, hcall]
  refine hlinked.finish hcall hcalls ?_ ?_
  · intro τ' hτ'
    obtain rfl := Option.some.inj (htask.symm.trans hτ')
    refine ⟨⟨owner, hold⟩, ?_⟩
    rw [World.body_setBody_self b hlt, hnew]
  · intro τ' hτ'
    have hne : τ' ≠ τ := by
      rintro rfl
      exact hτ' htask
    rw [World.body_setBody_of_ne b hne, body_endCall]

end Linked

/-- Every move keeps calls and tasks together. -/
theorem Move.linked (h : Move cfg w₀ e w w') (hlinked : Linked w) : Linked w' := by
  cases h with
  | tick | handlers | alter | halt | drop | failAll | cancelAll | settle =>
    exact hlinked.congr rfl (fun _ => rfl)
  | cancelTask τ => exact hlinked.congr rfl (fun τ' => by rw [World.body_requestCancel])
  | draw op => exact hlinked.congr (Rpc.calls_draw _ op) (fun _ => rfl)
  | start => exact hlinked.spawn rfl (fun _ => rfl) (fun _ => rfl)
  | heartbeat => exact hlinked.spawn rfl (fun _ => rfl) (fun _ => rfl)
  | stop => exact hlinked.spawn rfl (fun _ => rfl) (fun _ => rfl)
  | supervise _ hb =>
    have hfinish : Linked (w.finish _) :=
      hlinked.setBody rfl (fun _ => rfl) (by rw [hb]; rfl) rfl
    exact hfinish.spawn rfl (fun _ => rfl) (fun _ => rfl)
  | goto _ hgo => exact hlinked.setBody rfl (fun _ => rfl) hgo.awaits.1 hgo.awaits.2
  | reconnect _ hb hn => exact hlinked.setBody rfl (fun _ => rfl) (hb ▸ hn) rfl
  | take _ _ hb => exact hlinked.setBody rfl (fun _ => rfl) (by rw [hb]; rfl) rfl
  | @launch call c _ hframed _ _ howner =>
    refine hlinked.begin (by rw [hframed.phase]; rfl)
      (by rw [← w.rpc.calls_draw call.op]; rfl) ?_ (fun _ _ => rfl)
    intro τ hτ
    rw [howner] at hτ
    cases hτ
  | call _ hframed _ _ hcalls => exact hlinked.call hframed hcalls
  | @refuse call => exact hlinked.refuse call
  | await hcall hphase => exact hlinked.await hcall hphase
  | endCall _ hcall howner => exact hlinked.endCall hcall howner
  | resume _ _ hcall htask _ hresumes => exact hlinked.resume hcall htask hresumes

/-! ## Tasks -/

/-- A coroutine before its first step, or after its last. -/
def Body.fresh : Body → Bool
  | .start _ .connecting | .supervise _ .ready | .heartbeat .ready | .finished => true
  | _ => false

/-- The coroutine of a task after a move. -/
inductive Moved (cfg : Config) (w₀ : World) (e : Event) (w : World) (τ : ℕ) : Body → Prop
  | same {b : Body} : w.body τ = b → Moved cfg w₀ e w τ b
  | goes {b b' : Body} : Acts w₀ e τ → w.body τ = b → Goes cfg w₀ e w τ b b' →
      Moved cfg w₀ e w τ b'
  | takes {attempt c : ℕ} {f : Inbound} {inbox : List Inbound} : e = .recv τ →
      w.body τ = .supervise attempt (.reading c) →
      w.conns[c]?.map Connection.inbox = some (f :: inbox) →
      Moved cfg w₀ e w τ (.supervise attempt (.inCallback c f .onMessage))
  | reconnects {attempt attempt' : ℕ} {pc : SuperviseAt} : Acts w₀ e τ →
      w.body τ = .supervise attempt pc → (Body.supervise attempt pc).awaits τ = none →
      w.running = true →
      Moved cfg w₀ e w τ (.supervise attempt' (.opening w.conns.length .connecting))
  | calls {k : ℕ} {call : Call} {b b' : Body} : Acts w₀ e τ → w.body τ = b →
      Calls w₀ w τ k call b b' → Moved cfg w₀ e w τ b'
  | resumes {k : ℕ} {call : Call} {outcome : Outcome} {b b' : Body} : Acts w₀ e τ →
      w.rpc = w₀.rpc → w.rpc.calls[k]? = some call → call.owner.task = some τ →
      Ends w₀ e k call outcome → w.body τ = b → Resumes τ k outcome b b' →
      Moved cfg w₀ e w τ b'
  | begins {b : Body} : w.body τ = .finished → b.fresh = true → Moved cfg w₀ e w τ b

/-- A coroutine after a move is one of `Moved`. -/
theorem Move.moved (h : Move cfg w₀ e w w') (τ : ℕ) : Moved cfg w₀ e w τ (w'.body τ) := by
  have setBody {τ₁ : ℕ} {b : Body} {w₁ : World} (hsame : w₁.body τ = w.body τ)
      (hnew : τ₁ = τ → Moved cfg w₀ e w τ b) : Moved cfg w₀ e w τ ((w₁.setBody τ₁ b).body τ) := by
    rcases World.body_setBody_cases (w := w₁) (τ := τ₁) (b := b) τ with ⟨rfl, hb, -⟩ | hb
    · rw [hb]
      exact hnew rfl
    · rw [hb, hsame]
      exact .same rfl
  have spawn {b : Body} {w₁ : World} (hlength : w₁.tasks.length = w.tasks.length)
      (hsame : Moved cfg w₀ e w τ (w₁.body τ)) (hfresh : b.fresh = true) :
      Moved cfg w₀ e w τ ((w₁.spawn b).body τ) := by
    rcases World.body_spawn_cases (w := w₁) (b := b) τ with ⟨hτ, hb⟩ | hb
    · rw [hb]
      refine .begins ?_ hfresh
      by_contra hne
      have hlt := World.lt_of_body_ne hne
      omega
    · rw [hb]
      exact hsame
  cases h with
  | start => exact spawn rfl (.same rfl) rfl
  | goto hact hgo => exact setBody rfl (fun hτ => by subst hτ; exact .goes hact rfl hgo)
  | reconnect hact hb hn hrun =>
    exact setBody rfl (fun hτ => by subst hτ; exact .reconnects hact hb hn hrun)
  | take he _ hb hinbox => exact setBody rfl (fun hτ => by subst hτ; exact .takes he hb hinbox)
  | @supervise τ₁ c stage conn hreturns hb =>
    have hact : Acts w₀ e τ₁ := .task (by rw [hreturns.event]; rfl)
    have hfinish : Moved cfg w₀ e w τ ((w.finish τ₁).body τ) :=
      setBody rfl (fun hτ => by subst hτ; exact .goes hact hb (.finish rfl))
    exact spawn (by simp) hfinish rfl
  | heartbeat => exact spawn rfl (.same rfl) rfl
  | stop => exact spawn rfl (.same rfl) rfl
  | cancelTask τ₁ =>
    rw [World.body_requestCancel]
    exact .same rfl
  | call hact _ _ _ hcalls =>
    exact setBody rfl (fun hτ => by subst hτ; exact .calls hact rfl hcalls)
  | @resume τ₁ k call outcome b hact hrpc hcall htask hends hresumes =>
    exact setBody (body_endCall cfg w k outcome τ)
      (fun hτ => by subst hτ; exact .resumes hact hrpc hcall htask hends rfl hresumes)
  | endCall =>
    rw [body_endCall]
    exact .same rfl
  | _ => exact .same rfl

/-- A task that does not act stays where it is. -/
theorem Moves.body_of_not_acts {τ : ℕ} (h : Moves cfg w₀ e w w') (hact : ¬Acts w₀ e τ)
    (hne : w.body τ ≠ .finished) : w'.body τ = w.body τ := by
  induction h with
  | refl => rfl
  | @tail w₁ w₂ _ hlast ih =>
    have hmoved := hlast.moved τ
    generalize w₂.body τ = b at hmoved
    cases hmoved with
    | same hb => exact hb.symm.trans ih
    | goes hacts => exact absurd hacts hact
    | takes he => exact absurd (.task (by rw [he]; rfl)) hact
    | reconnects hacts => exact absurd hacts hact
    | calls hacts => exact absurd hacts hact
    | resumes hacts => exact absurd hacts hact
    | begins hb => exact absurd (ih.symm.trans hb) hne

/-- A task outside of calls is resumed by a label that names it. -/
theorem task_of_acts {τ : ℕ} (hlinked : Linked w) (h : step cfg w e = some w')
    (hact : Acts w e τ) (hlt : τ < w.tasks.length) (hn : (w.body τ).awaits τ = none) :
    e.task = some τ := by
  cases hact with
  | stop => omega
  | task htask => exact htask
  | @call e k call _ hcallNo hcall htask =>
    have hstep : w.callStep cfg k e = some w' := by cases e <;> cases hcallNo <;> exact h
    obtain ⟨call', hcall', hended, -⟩ := callStep_cases hcallNo hstep
    obtain rfl := Option.some.inj (hcall'.symm.trans hcall)
    rw [hlinked.awaited hcall hended htask] at hn
    cases hn

/-! ## Pumps -/

/-- The task that takes a frame or goes on with one in a step. -/
def Event.handles : Event → Option ℕ
  | .recv σ | .callbackEnd σ _ => some σ
  | _ => none

/-- A task that pumps is one of the tasks that were created. -/
theorem lt_of_pumps {σ c : ℕ} (h : (w.body σ).pumps = some c) : σ < w.tasks.length := by
  apply World.lt_of_body_ne
  intro hb
  rw [hb] at h
  cases h

/-- A pump is in `recv`, in a callback, or in a call of a callback. -/
theorem Body.pumps_cases {b : Body} {c : ℕ} (h : b.pumps = some c) :
    (∃ a, b = .supervise a (.reading c)) ∨ (∃ a f cb, b = .supervise a (.inCallback c f cb)) ∨
      ∃ a f cb k, b = .supervise a (.inCallbackCall c f cb k) := by
  unfold Body.pumps at h
  split at h
  · cases h
    exact .inl ⟨_, rfl⟩
  · cases h
    exact .inr (.inl ⟨_, _, _, rfl⟩)
  · cases h
    exact .inr (.inr ⟨_, _, _, _, rfl⟩)
  · cases h

/-- The labels that resume a task while it pumps. -/
theorem task_of_pumps {σ c : ℕ} (h : step cfg w e = some w')
    (hpumps : (w.body σ).pumps = some c) (htask : e.task = some σ) :
    e.handles = some σ ∨ e = .socketEnd σ ∨ e = .deliverCancel σ ∨
      ∃ op, e = .callbackCall σ op := by
  have hopening : w.opening? σ = none := by
    rcases Body.pumps_cases hpumps with ⟨a, hb⟩ | ⟨a, f, cb, hb⟩ | ⟨a, f, cb, k, hb⟩ <;>
      simp [World.opening?, hb]
  cases e <;> cases htask
  case recv => exact .inl rfl
  case callbackEnd => exact .inl rfl
  case socketEnd => exact .inr (.inl rfl)
  case deliverCancel => exact .inr (.inr (.inl rfl))
  case callbackCall op => exact .inr (.inr (.inr ⟨op, rfl⟩))
  case connected | connectFailed | authSent | authSendFailed | authReply | authTimeout
      | authClosed => simp [step, World.openStep, hopening] at h
  all_goals
    rcases Body.pumps_cases hpumps with ⟨a, hb⟩ | ⟨a, f, cb, hb⟩ | ⟨a, f, cb, k, hb⟩ <;>
      simp [step, World.runStep, World.wakeStep, World.closeDoneStep, World.stopStep, hb] at h

/-! ## Sockets -/

/-- An open socket is attached to its connection. -/
def Attached (w : World) : Prop :=
  ∀ (c : ℕ) (conn : Connection), w.conns[c]? = some conn → conn.sock.isOpen = true →
    conn.attached = true

/-- The socket of a connection is open, whether or not the client still holds it. -/
def World.socketOpen (w : World) (c : ℕ) : Bool := (w.sock c).isOpen

/-- A socket is open while it is live and while it closes. -/
theorem Sock.isOpen_iff {s : Sock} : s.isOpen = true ↔ s = .live ∨ s = .closing := by
  cases s <;> simp [Sock.isOpen]

/-- An open socket is the socket of a connection. -/
theorem World.socketOpen_iff {c : ℕ} :
    w.socketOpen c = true ↔ ∃ conn, w.conns[c]? = some conn ∧ conn.sock.isOpen = true := by
  unfold World.socketOpen World.sock
  cases w.conns[c]? <;> simp [Sock.isOpen]

/-- An open socket of an attached connection is open to `send()`. -/
theorem Attached.isOpen (hattached : Attached w) {c : ℕ} (h : w.socketOpen c = true) :
    w.isOpen c = true := by
  obtain ⟨conn, hconn, hopen⟩ := World.socketOpen_iff.mp h
  have hsock := Sock.isOpen_iff.mp hopen
  simp [World.isOpen, hconn, Connection.isOpen, hattached c conn hconn hopen, hsock]

/-- A connection after a move is as it was, was altered, had the frame of a call written to
it, or is new. -/
theorem Move.conn_cases (h : Move cfg w₀ e w w') {c : ℕ} {conn' : Connection}
    (hconn' : w'.conns[c]? = some conn') :
    w.conns[c]? = some conn' ∨
      (∃ f conn, Alters w₀ e w c f ∧ w.conns[c]? = some conn ∧ conn' = f conn) ∨
      (∃ k frame conn, w.conns[c]? = some conn ∧ conn' = conn.write (.call k frame) ∧
        w.sendConn = some c ∧ Sends cfg w₀ e w) ∨
      (c = w.conns.length ∧ conn' = {}) := by
  have added (h : (w.conns ++ [({} : Connection)])[c]? = some conn') :
      w.conns[c]? = some conn' ∨ (c = w.conns.length ∧ conn' = {}) :=
    Rpc.getElem?_concat_cases h
  cases h with
  | alter halters =>
    rcases World.conn_modifyConn_cases hconn' with ⟨-, hold⟩ | ⟨rfl, conn, hold, rfl⟩
    · exact .inl hold
    · exact .inr (.inl ⟨_, conn, halters, hold, rfl⟩)
  | take he hw _ hinbox =>
    rcases World.conn_modifyConn_cases hconn' with ⟨-, hold⟩ | ⟨rfl, conn, hold, rfl⟩
    · exact .inl hold
    · exact .inr (.inl ⟨_, conn, .pop (.inl he) hw hinbox, hold, rfl⟩)
  | launch hw hframed _ hcallConn _ he =>
    rcases World.conn_modifyConn_cases hconn' with ⟨-, hold⟩ | ⟨rfl, conn, hold, rfl⟩
    · exact .inl hold
    · subst he hw
      have hsend : w.sendConn = some c := hframed.conn.symm.trans hcallConn
      exact .inr (.inr (.inl ⟨_, _, conn, hold, rfl, hsend, .first hframed.sends (by simp) rfl⟩))
  | call _ hframed _ hcallConn _ hsends =>
    rcases World.conn_modifyConn_cases hconn' with ⟨-, hold⟩ | ⟨rfl, conn, hold, rfl⟩
    · exact .inl hold
    · have hsend : w.sendConn = some c := hframed.conn.symm.trans hcallConn
      exact .inr (.inr (.inl ⟨_, _, conn, hold, rfl, hsend, hsends⟩))
  | start =>
    rcases added hconn' with hold | hnew
    · exact .inl hold
    · exact .inr (.inr (.inr hnew))
  | reconnect =>
    rcases added hconn' with hold | hnew
    · exact .inl hold
    · exact .inr (.inr (.inr hnew))
  | endCall =>
    rw [conns_endCall] at hconn'
    exact .inl hconn'
  | resume =>
    rw [World.setBody_conns, conns_endCall] at hconn'
    exact .inl hconn'
  | _ => exact .inl hconn'

/-- Every move attaches the sockets that it opens. -/
theorem Move.attached (h : Move cfg w₀ e w w') (hattached : Attached w) : Attached w' := by
  intro c conn' hconn' hopen
  rcases h.conn_cases hconn' with hold | ⟨f, conn, halters, hold, rfl⟩ |
    ⟨k, frame, conn, hold, rfl, -⟩ | ⟨-, rfl⟩
  · exact hattached c conn' hold hopen
  · cases halters with
    | message =>
      rw [Connection.sock_write] at hopen
      rw [Connection.attached_write, hattached c conn hold hopen]
    | beginClose =>
      unfold Connection.beginClose at hopen ⊢
      split
      · rename_i hlive
        exact hattached c conn hold (by rw [hlive]; rfl)
      · rename_i hlive
        rw [if_neg hlive] at hopen
        exact hattached c conn hold hopen
    | endClose =>
      unfold Connection.endClose at hopen
      split at hopen
      · cases hopen
      · rename_i hclosed
        exact absurd (Sock.isOpen_iff.mp hopen) hclosed
    | detach hclosed =>
      have hsock : w.socketOpen c = true := World.socketOpen_iff.mpr ⟨conn, hold, hopen⟩
      rw [hattached.isOpen hsock] at hclosed
      cases hclosed
    | close => cases hopen
    | connect => exact Connection.attached_write conn.connect .auth
    | _ => exact hattached c conn hold hopen
  · rw [Connection.sock_write] at hopen
    rw [Connection.attached_write, hattached c conn hold hopen]
  · cases hopen

/-- A socket that is open after a move was open before it, or `open()` has just connected it. -/
theorem Move.socketOpen (h : Move cfg w₀ e w w') {c : ℕ} (hopen : w'.socketOpen c = true) :
    w.socketOpen c = true ∨
      ∃ τ, e = .connected τ ∧ w = w₀ ∧ w.opening? τ = some (c, .connecting) := by
  obtain ⟨conn', hconn', hopen'⟩ := World.socketOpen_iff.mp hopen
  rcases h.conn_cases hconn' with hold | ⟨f, conn, halters, hold, rfl⟩ |
    ⟨k, frame, conn, hold, rfl, -⟩ | ⟨-, rfl⟩
  · exact .inl (World.socketOpen_iff.mpr ⟨conn', hold, hopen'⟩)
  · have keeps (h : conn.sock.isOpen = true) : w.socketOpen c = true :=
      World.socketOpen_iff.mpr ⟨conn, hold, h⟩
    cases halters with
    | message => exact .inl (keeps (by rwa [Connection.sock_write] at hopen'))
    | beginClose =>
      unfold Connection.beginClose at hopen'
      split at hopen'
      · rename_i hlive
        exact .inl (keeps (by rw [hlive]; rfl))
      · exact .inl (keeps hopen')
    | endClose =>
      unfold Connection.endClose at hopen'
      split at hopen'
      · cases hopen'
      · exact .inl (keeps hopen')
    | close => cases hopen'
    | connect he hw hopening => exact .inr ⟨_, he, hw, hopening⟩
    | _ => exact .inl (keeps hopen')
  · rw [Connection.sock_write] at hopen'
    exact .inl (World.socketOpen_iff.mpr ⟨conn, hold, hopen'⟩)
  · cases hopen'

/-! ## Reachable states -/

/-- What holds in every reachable state, whatever the server and the application do. -/
structure Sound (cfg : Config) (w : World) : Prop where
  linked : Linked w
  rpc : w.rpc.Inv cfg.dialect
  attached : Attached w

/-- The client satisfies the invariant before its first `start()`. -/
theorem Sound.init (cfg : Config) : Sound cfg World.init where
  linked := .init
  rpc := .init cfg.dialect
  attached _ _ h := by simp [World.init] at h

/-- Every move keeps it, component by component. -/
theorem Sound.move (hsound : Sound cfg w) (h : Move cfg w₀ e w w') : Sound cfg w' where
  linked := h.linked hsound.linked
  rpc := hsound.rpc.moves h.rpc
  attached := h.attached hsound.attached

/-- So does every chain of moves. -/
theorem Sound.moves (hsound : Sound cfg w) (h : Moves cfg w₀ e w w') : Sound cfg w' := by
  induction h with
  | refl => exact hsound
  | tail _ hlast ih => exact ih.move hlast

/-- Every state of every run is sound, by induction on the run. -/
theorem sound_of_run {ok : World → Event → Prop} {es : List Event}
    (hrun : Transition.Run (step cfg) ok World.init es w) : Sound cfg w :=
  hrun.invariant (.init cfg) (fun _ _ _ hsound _ h => hsound.moves (step_moves hsound.linked h))

/-- A property of a sound state that every move of an admitted step keeps holds at the end of
every run from it. -/
theorem Sound.invariant_of_moves {ok : World → Event → Prop} {I : World → Prop} {es : List Event}
    (hsound : Sound cfg w) (hrun : Transition.Run (step cfg) ok w es w') (hinit : I w)
    (hmove : ∀ {w₀ e w w'}, ok w₀ e → Sound cfg w₀ → I w₀ → Sound cfg w → I w →
      Moves cfg w₀ e w₀ w → Move cfg w₀ e w w' → I w') : I w' := by
  have hboth : Sound cfg w' ∧ I w' := by
    refine Transition.Run.invariant_of_moves (I := fun w => Sound cfg w ∧ I w) hrun
      (fun ht h => step_moves ht.1.linked h) ⟨hsound, hinit⟩ ?_
    intro t e v v' hok ht hchain hv hlast
    exact ⟨hv.1.move hlast, hmove hok ht.1 ht.2 hv.1 hv.2 hchain hlast⟩
  exact hboth.2

/-- A property that holds at first and that every move of an admitted step keeps holds in
every state of every run. -/
theorem invariant_of_moves {ok : World → Event → Prop} {I : World → Prop} {es : List Event}
    (hrun : Transition.Run (step cfg) ok World.init es w) (hinit : I World.init)
    (hmove : ∀ {w₀ e w w'}, ok w₀ e → Sound cfg w₀ → I w₀ → Sound cfg w → I w →
      Moves cfg w₀ e w₀ w → Move cfg w₀ e w w' → I w') : I w :=
  (Sound.init cfg).invariant_of_moves hrun hinit hmove

/-- In every run, a call that ended with `TimeoutError` has not been settled. -/
theorem cancelled_of_timeoutError {ok : World → Event → Prop} {es : List Event}
    (hrun : Transition.Run (step cfg) ok World.init es w) {k : ℕ} {call : Call}
    (hcall : w.rpc.calls[k]? = some call) (hended : call.phase = .ended (.raised .timeoutError)) :
    w.rpc.future k = some .cancelled := by
  have hinv : ∀ (k : ℕ) (call : Call), w.rpc.calls[k]? = some call →
      call.phase = .ended (.raised .timeoutError) → w.rpc.future k = some .cancelled := by
    refine invariant_of_moves (I := fun w => ∀ (k : ℕ) (call : Call),
      w.rpc.calls[k]? = some call → call.phase = .ended (.raised .timeoutError) →
        w.rpc.future k = some .cancelled) hrun (fun k call h => by simp [World.init] at h) ?_
    intro w₀ e w w' _ hsound₀ _ _ hw _ hmove k call hcall hended
    rcases hmove.call_cases hcall with ⟨call₀, hcall₀, hcont⟩ | ⟨-, call₀, hframed, -, h | h⟩
    · cases hcont with
      | same => exact hmove.rpc.future_done (hw k _ hcall₀ hended) rfl
      | await hphase => cases hended
      | ends hends hrpc hrpc' =>
        obtain rfl := Phase.ended.inj hended
        obtain ⟨-, ⟨deadline, hphase⟩, hpending⟩ := hends.timedOut hsound₀.rpc
        rw [hrpc']
        exact Rpc.future_finish_of_waiting hcall₀ hphase (hrpc ▸ hpending)
    · rw [h, hframed.phase] at hended
      cases hended
    · rw [h] at hended
      cases hended
  exact hinv k call hcall hended

/-- In every run, the client's own tasks begin calls of one kind each. -/
theorem fitting_of_run {ok : World → Event → Prop} {es : List Event}
    (hrun : Transition.Run (step cfg) ok World.init es w) {k : ℕ} {call : Call}
    (hcall : w.rpc.calls[k]? = some call) : Fitting call := by
  have hinv : ∀ (k : ℕ) (call : Call), w.rpc.calls[k]? = some call → Fitting call := by
    refine invariant_of_moves (I := fun w => ∀ (k : ℕ) (call : Call),
      w.rpc.calls[k]? = some call → Fitting call) hrun
      (fun k call h => by simp [World.init] at h) ?_
    intro w₀ e w w' _ _ _ _ hw _ hmove k call hcall
    rcases hmove.call_cases hcall with ⟨call₀, hcall₀, hcont⟩ | ⟨-, call₀, -, hfitting, h | h⟩
    · have hold := hw k call₀ hcall₀
      cases hcont with
      | same => exact hold
      | await => exact ⟨hold.replay, hold.heartbeat⟩
      | ends => exact ⟨hold.replay, hold.heartbeat⟩
    · exact h ▸ hfitting
    · exact h ▸ ⟨hfitting.replay, hfitting.heartbeat⟩
  exact hinv k call hcall

end ProxyClient.Websocket
