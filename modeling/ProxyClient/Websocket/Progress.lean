import ProxyClient.Fair
import ProxyClient.Websocket.Deadlines
import ProxyClient.Websocket.Wire
import Mathlib.Algebra.Order.Archimedean.Basic

/-!
# Every call ends

A call is in `ws.send`, waits for its future until its deadline, and ends. Once it waits, one of its
own labels or the delivery of a `CancelledError` to the task that awaits it takes it further when
the deadline has passed, whatever the server and the other tasks do. In `ws.send` no timeout covers
it: `websockets` awaits `drain()` there, so that a live peer that reads nothing holds the call up.
So every call of an infinite execution ends, or it is held up in `ws.send` for ever.
-/

namespace ProxyClient.Websocket

open Transition

variable {cfg : Config} {w₀ w w' : World} {e : Event} {k σ τ : ℕ} {call call' : Call}
  {owner : Owner} {phase : Phase} {deadline : ℚ}

/-- A call of an owner is in a phase. -/
def Stands (w : World) (k : ℕ) (owner : Owner) (phase : Phase) : Prop :=
  ∃ call, w.rpc.calls[k]? = some call ∧ call.owner = owner ∧ call.phase = phase

/-- A call of an owner has ended, in whatever way. -/
def HasEnded (w : World) (k : ℕ) (owner : Owner) : Prop :=
  ∃ outcome, Stands w k owner (.ended outcome)

/-- A call of an owner waits for its future, up to some deadline. -/
def WaitsFor (w : World) (k : ℕ) (owner : Owner) : Prop :=
  ∃ deadline, Stands w k owner (.waiting deadline)

/-- The labels that take a call of an owner further. A cancellation by its caller is up to the
caller and not among them. -/
def advances (k : ℕ) (owner : Owner) : Set Event :=
  {e | e = .sent k ∨ e = .sendFailed k ∨ e = .resume k ∨ e = .timeout k ∨
    ∃ τ, owner.task = some τ ∧ e = .deliverCancel τ}

/-- The labels that end a `ws.send` which does not return: the socket is lost, or the task that
awaits it is cancelled. -/
def breaksOff (k : ℕ) (owner : Owner) : Set Event :=
  {e | e = .sendFailed k ∨ ∃ τ, owner.task = some τ ∧ e = .deliverCancel τ}

/-- The labels that end a call whose frame is sent. -/
def concludes (k : ℕ) (owner : Owner) : Set Event :=
  {e | e = .resume k ∨ e = .timeout k ∨ ∃ τ, owner.task = some τ ∧ e = .deliverCancel τ}

/-- The labels that break a call off are among those that advance it. -/
theorem breaksOff_subset (k : ℕ) (owner : Owner) : breaksOff k owner ⊆ advances k owner := by
  rintro e (rfl | hcancel)
  · exact .inr (.inl rfl)
  · exact .inr (.inr (.inr (.inr hcancel)))

/-- So are the labels that conclude its wait. -/
theorem concludes_subset (k : ℕ) (owner : Owner) : concludes k owner ⊆ advances k owner := by
  rintro e (rfl | rfl | hcancel)
  · exact .inr (.inr (.inl rfl))
  · exact .inr (.inr (.inr (.inl rfl)))
  · exact .inr (.inr (.inr (.inr hcancel)))

/-- A call is in the `ws.send` of a live socket, and nobody cancels it. Only the peer can let it
return, by reading what it is sent. -/
structure HeldUp (w : World) (k : ℕ) (call : Call) : Prop where
  begun : w.rpc.calls[k]? = some call
  sending : call.phase = .sending
  live : call.conn.map w.sock = some .live
  free : w.ownerFree call.owner = true

/-! ## What a step keeps -/

/-- A call that was there before a chain of moves is in `ws.send` after it only if it was so
before. -/
theorem Moves.sending (h : Moves cfg w₀ e w₀ w) (hcall₀ : w₀.rpc.calls[k]? = some call)
    (hcall' : w.rpc.calls[k]? = some call') (hphase : call'.phase = .sending) :
    call.phase = .sending := by
  induction h generalizing call' with
  | refl => exact Option.some.inj (hcall₀.symm.trans hcall') ▸ hphase
  | tail hchain hlast ih =>
    obtain ⟨mid, hmid, -⟩ := Moves.extends hchain k call hcall₀
    rcases hlast.call_origin hcall' with ⟨mid', hmid', hcontinues⟩ | ⟨rfl, -⟩
    · cases hcontinues with
      | same => exact ih hmid' hphase
      | await => cases hphase
      | ends => cases hphase
    · simp at hmid

/-- A step leaves a call in its phase, lets it wait once its send has returned, or ends it. -/
theorem phase_of_step (hlinked : Linked w) (h : step cfg w e = some w')
    (hstands : Stands w k owner phase) (hphase : phase.isEnded = false) :
    Stands w' k owner phase ∨ (phase = .sending ∧ WaitsFor w' k owner) ∨ HasEnded w' k owner := by
  obtain ⟨call, hcall, rfl, rfl⟩ := hstands
  have hmoves := step_moves hlinked h
  obtain ⟨call', hcall', hsame⟩ := hmoves.extends k call hcall
  have stands {phase : Phase} (hphase : call'.phase = phase) : Stands w' k call.owner phase :=
    ⟨call', hcall', hsame.owner, hphase⟩
  cases hphase' : call'.phase with
  | sending =>
    rw [hmoves.sending hcall hcall' hphase']
    exact .inl (stands hphase')
  | waiting deadline =>
    rcases waits_of_step h hcall' hphase' with hold | hreturns
    · obtain rfl := Option.some.inj (hcall.symm.trans hold)
      exact .inl (stands rfl)
    · obtain rfl := Option.some.inj (hcall.symm.trans hreturns.sending)
      exact .inr (.inl ⟨rfl, deadline, stands hphase'⟩)
  | ended outcome => exact .inr (.inr ⟨outcome, stands hphase'⟩)

/-! ## Cancellations that wait -/

/-- A task that goes on clears its own request to cancel, and no other. -/
theorem isCancelled_setBody_of_ne {b : Body} (hne : σ ≠ τ) :
    (w.setBody τ b).isCancelled σ = w.isCancelled σ := by
  simp [World.isCancelled, Ne.symm hne]

/-- It does clear its own. -/
theorem isCancelled_setBody_self {b : Body} (hlt : τ < w.tasks.length) :
    (w.setBody τ b).isCancelled τ = false := by
  simp [World.isCancelled, hlt]

/-- A request to cancel outlasts the creation of another task. -/
theorem isCancelled_spawn {b : Body} (h : w.isCancelled σ = true) :
    (w.spawn b).isCancelled σ = true := by
  have hlt : σ < w.tasks.length := by
    by_contra hle
    simp [World.isCancelled, List.getElem?_eq_none (Nat.le_of_not_lt hle)] at h
  simpa [World.isCancelled, List.getElem?_append_left hlt] using h

/-- It outlasts another request to cancel. -/
theorem isCancelled_requestCancel (h : w.isCancelled σ = true) :
    (w.requestCancel τ).isCancelled σ = true := by
  by_cases heq : τ = σ
  · subst heq
    cases ht : w.tasks[τ]? with
    | none => simp [World.isCancelled, ht] at h
    | some t => simp [World.isCancelled, ht]
  · simpa [World.isCancelled, heq] using h

/-- A cancellation waits for the task that it is for. -/
theorem Moves.isCancelled {w₀ : World} (h : Moves cfg w₀ e w w') (hact : ¬Acts w₀ e σ)
    (hflag : w.isCancelled σ = true) : w'.isCancelled σ = true := by
  induction h with
  | refl => exact hflag
  | tail _ hlast ih =>
    have other {τ : ℕ} (hacts : Acts w₀ e τ) : σ ≠ τ := by
      rintro rfl
      exact hact hacts
    cases hlast with
    | start => exact isCancelled_spawn ih
    | goto hacts => rwa [isCancelled_setBody_of_ne (other hacts)]
    | reconnect hacts =>
      rw [World.beginReconnect, isCancelled_setBody_of_ne (other hacts)]
      exact ih
    | take he =>
      rw [isCancelled_setBody_of_ne (other (.task (by rw [he]; rfl)))]
      exact ih
    | supervise hreturns =>
      apply isCancelled_spawn
      have hne := other (.task (by rw [hreturns.event]; rfl))
      exact (isCancelled_setBody_of_ne hne).trans ih
    | heartbeat => exact isCancelled_spawn ih
    | stop => exact isCancelled_spawn ih
    | cancelTask => exact isCancelled_requestCancel ih
    | call hacts =>
      rw [isCancelled_setBody_of_ne (other hacts)]
      exact ih
    | endCall =>
      rw [endCall_eq]
      exact ih
    | resume hacts =>
      rw [isCancelled_setBody_of_ne (other hacts), endCall_eq]
      exact ih
    | _ => exact ih

/-! ## What helps -/

/-- A call that ends has the outcome with which it ended. -/
theorem stands_finish {outcome : Outcome} (hcall : w.rpc.calls[k]? = some call)
    (hrpc : w'.rpc = w.rpc.finish k outcome) : HasEnded w' k call.owner := by
  refine ⟨outcome, { call with phase := .ended outcome }, ?_, rfl, rfl⟩
  simp [hrpc, Rpc.calls_finish hcall, hcall]

/-- A `CancelledError` that is delivered to the task that awaits a call ends the call. -/
theorem ended_of_cancelStep {τ : ℕ} (hlinked : Linked w) (hcall : w.rpc.calls[k]? = some call)
    (hopen : call.phase.isEnded = false) (htask : call.owner.task = some τ)
    (h : w.cancelStep cfg τ = some w') : HasEnded w' k call.owner := by
  have hawaits := hlinked.awaited hcall hopen htask
  rcases Body.awaits_cases hawaits with ⟨-, a, c, f, cb, hbody⟩ | ⟨-, a, rest, hbody⟩ |
    ⟨-, conn, hbody⟩
  · simp only [World.cancelStep, hbody] at h
    cases h
    exact stands_finish hcall (rpc_endCall cfg w k _)
  · simp only [World.cancelStep, hbody] at h
    cases h
    exact stands_finish hcall (rpc_endCall cfg w k _)
  · simp only [World.cancelStep, hbody] at h
    cases h
    exact stands_finish hcall (rpc_endCall cfg w k _)

/-- A label of a call takes it out of its phase. -/
theorem advances_helps (hlinked : Linked w) (h : step cfg w e = some w')
    (he : e ∈ advances k owner) (hstands : Stands w k owner phase)
    (hphase : phase.isEnded = false) :
    (phase = .sending ∧ WaitsFor w' k owner) ∨ HasEnded w' k owner := by
  obtain ⟨call, hcall, rfl, rfl⟩ := hstands
  have own (hcallNo : e.callNo = some k) (hstep : w.callStep cfg k e = some w') :
      (call.phase = .sending ∧ WaitsFor w' k call.owner) ∨ HasEnded w' k call.owner := by
    rcases callStep_outcome hcallNo hstep with ⟨call₀, hreturns, rfl⟩ | ⟨outcome, rfl⟩
    · obtain rfl := Option.some.inj (hcall.symm.trans hreturns.sending)
      refine .inl ⟨rfl, w.now + call₀.timeout,
        { call₀ with phase := .waiting (w.now + call₀.timeout) }, ?_, rfl, rfl⟩
      simp [Rpc.await, hcall]
    · have hrpc : (w.conclude cfg k outcome).rpc = w.rpc.finish k outcome := by
        simp [World.conclude, hcall, rpc_endCall]
      exact .inr (stands_finish hcall hrpc)
  rcases he with rfl | rfl | rfl | rfl | ⟨τ, htask, rfl⟩
  · exact own rfl h
  · exact own rfl h
  · exact own rfl h
  · exact own rfl h
  · simp only [step] at h
    split at h
    · exact .inr (ended_of_cancelStep hlinked hcall hphase htask h)
    · cases h

/-! ## What is enabled -/

/-- The task of an owner that is not free is to be cancelled. -/
theorem World.ownerFree_eq_false (owner : Owner) :
    w.ownerFree owner = false ↔ ∃ τ, owner.task = some τ ∧ w.isCancelled τ = true := by
  cases owner <;> simp [World.ownerFree, Owner.task]

/-- A task that awaits a call and is to be cancelled can be. -/
theorem enabled_of_not_free (cfg : Config) (hlinked : Linked w)
    (hcall : w.rpc.calls[k]? = some call) (hopen : call.phase.isEnded = false)
    (hfree : w.ownerFree call.owner = false) :
    ∃ τ, call.owner.task = some τ ∧ (step cfg w (.deliverCancel τ)).isSome = true := by
  obtain ⟨τ, htask, hcancelled⟩ := (World.ownerFree_eq_false _).mp hfree
  refine ⟨τ, htask, ?_⟩
  have hawaits := hlinked.awaited hcall hopen htask
  rcases Body.awaits_cases hawaits with ⟨-, a, c, f, cb, hbody⟩ | ⟨-, a, rest, hbody⟩ |
    ⟨-, conn, hbody⟩
  · simp [step, hcancelled, World.cancelStep, hbody]
  · simp [step, hcancelled, World.cancelStep, hbody]
  · simp [step, hcancelled, World.cancelStep, hbody]

/-- A call that no live socket holds up in `ws.send` can go on. -/
theorem sending_enabled (hlinked : Linked w) (hstands : Stands w k owner .sending)
    (hheld : ¬∃ call, HeldUp w k call) : Enabled (step cfg) (breaksOff k owner) w := by
  obtain ⟨call, hcall, rfl, hphase⟩ := hstands
  cases hfree : w.ownerFree call.owner with
  | false =>
    obtain ⟨τ, htask, hcancel⟩ := enabled_of_not_free cfg hlinked hcall (by rw [hphase]; rfl) hfree
    exact ⟨.deliverCancel τ, .inr ⟨τ, htask, rfl⟩, hcancel⟩
  | true =>
    have hlive : call.conn.map w.sock ≠ some .live :=
      fun hlive => hheld ⟨call, hcall, hphase, hlive, hfree⟩
    refine ⟨.sendFailed k, .inl rfl, ?_⟩
    simp [step, World.callStep, hcall, hfree, hphase, hlive]

/-- The `ws.send` that holds a call up may return. -/
theorem HeldUp.enabled (h : HeldUp w k call) : (step cfg w (.sent k)).isSome = true := by
  simp [step, World.callStep, h.begun, h.free, h.sending, h.live]

/-- A call whose deadline has passed can go on. -/
theorem waiting_enabled (hsound : Sound cfg w) (hstands : Stands w k owner (.waiting deadline))
    (hdeadline : deadline ≤ w.now) : Enabled (step cfg) (concludes k owner) w := by
  obtain ⟨call, hcall, rfl, hphase⟩ := hstands
  cases hfree : w.ownerFree call.owner with
  | false =>
    obtain ⟨τ, htask, hcancel⟩ :=
      enabled_of_not_free cfg hsound.linked hcall (by rw [hphase]; rfl) hfree
    exact ⟨.deliverCancel τ, .inr (.inr ⟨τ, htask, rfl⟩), hcancel⟩
  | true =>
    have resumes (hdone : (step cfg w (.resume k)).isSome = true) :
        Enabled (step cfg) (concludes k call.owner) w := ⟨.resume k, .inl rfl, hdone⟩
    have hlt : k < w.rpc.pending.heap.length :=
      hsound.rpc.lockstep ▸ (List.getElem?_eq_some_iff.mp hcall).1
    have hfuture : w.rpc.future k = some w.rpc.pending.heap[k] := List.getElem?_eq_getElem hlt
    cases hf : w.rpc.pending.heap[k] with
    | pending =>
      refine ⟨.timeout k, .inr (.inl rfl), ?_⟩
      simp [step, World.callStep, hcall, hfree, hphase, hdeadline, hfuture, hf]
    | result f =>
      apply resumes
      simp [step, World.callStep, hcall, hfree, hphase, hfuture, hf]
    | exception exc =>
      apply resumes
      simp [step, World.callStep, hcall, hfree, hphase, hfuture, hf]
    | cancelled =>
      apply resumes
      simp [step, World.callStep, hcall, hfree, hphase, hfuture, hf]

/-! ## What is released stays so -/

/-- A cancellation that waits for a task goes on waiting while the task awaits its call in
`ws.send`. -/
theorem isCancelled_of_sending (hlinked : Linked w) (h : step cfg w e = some w')
    (hstands : Stands w k owner .sending) (hstands' : Stands w' k owner .sending)
    (htask : owner.task = some τ) (hcancelled : w.isCancelled τ = true) :
    w'.isCancelled τ = true := by
  obtain ⟨call, hcall, rfl, hphase⟩ := hstands
  have hopen : call.phase.isEnded = false := by rw [hphase]; rfl
  have hawaits := hlinked.awaited hcall hopen htask
  have hnotFree (owner : Owner) (htask : owner.task = some τ) : w.ownerFree owner = false :=
    (World.ownerFree_eq_false owner).mpr ⟨τ, htask, hcancelled⟩
  apply Moves.isCancelled (step_moves hlinked h) ?_ hcancelled
  intro hacts
  cases hacts with
  | task hevent =>
    by_cases hdeliver : e = .deliverCancel τ
    · subst hdeliver
      have hcancel : w.cancelStep cfg τ = some w' := by simpa [step, hcancelled] using h
      obtain ⟨outcome, call', hcall', -, hended⟩ :=
        ended_of_cancelStep hlinked hcall hopen htask hcancel
      obtain ⟨call'', hcall'', -, hsending⟩ := hstands'
      obtain rfl := Option.some.inj (hcall'.symm.trans hcall'')
      rw [hended] at hsending
      cases hsending
    · -- a task that is to be cancelled takes no other step while it awaits a call
      rcases Body.awaits_cases hawaits with ⟨-, a, c, f, cb, hbody⟩ | ⟨-, a, rest, hbody⟩ |
        ⟨-, conn, hbody⟩
      all_goals
        cases e <;> cases hevent <;>
          first
          | exact hdeliver rfl
          | simp [step, hcancelled, hbody, World.stopStep] at h
  | @call _ k' call' _ hcallNo hcall' howner =>
    have hnone : w.callStep cfg k' e = none := by
      simp [World.callStep, hcall', hnotFree call'.owner howner]
    cases e <;> cases hcallNo <;> rw [step, hnone] at h <;> cases h
  | stop =>
    have hlt : w.tasks.length < w.tasks.length := by
      apply World.lt_of_body_ne
      intro hfinished
      rw [hfinished] at hawaits
      cases hawaits
    exact Nat.lt_irrefl _ hlt

/-- A call that no live socket holds up in `ws.send` is not held up later. -/
theorem released_of_step (hsound : Sound cfg w) (hopenings : Openings w) (hwired : Wired w)
    (h : step cfg w e = some w') (hstands : Stands w k owner .sending)
    (hstands' : Stands w' k owner .sending) (hheld : ¬∃ call, HeldUp w k call) :
    ¬∃ call, HeldUp w' k call := by
  rintro ⟨call', hheld'⟩
  obtain ⟨call, hcall, rfl, hphase⟩ := id hstands
  obtain ⟨call'', hcall'', hsame⟩ := (step_moves hsound.linked h).extends k call hcall
  obtain rfl := Option.some.inj (hcall''.symm.trans hheld'.begun)
  obtain ⟨c, hbound, hlive'⟩ := Option.map_eq_some_iff.mp hheld'.live
  rw [hsame.conn] at hbound
  by_cases hlive : w.sock c = .live
  · -- then its task is to be cancelled, and still is
    have hfree : w.ownerFree call.owner = false := by
      by_contra hfree
      exact hheld ⟨call, hcall, hphase, by simp [hbound, hlive], by simpa using hfree⟩
    obtain ⟨τ, htask, hcancelled⟩ := (World.ownerFree_eq_false _).mp hfree
    have hcancelled' := isCancelled_of_sending hsound.linked h hstands hstands' htask hcancelled
    have hfree' := (World.ownerFree_eq_false (w := w') call.owner).mpr ⟨τ, htask, hcancelled'⟩
    rw [← hsame.owner, hheld'.free] at hfree'
    cases hfree'
  · refine not_live_of_step hsound.linked h hlive ?_ hlive'
    intro τ hopening
    obtain ⟨conn, hconn, rest, hrest, -⟩ := (hwired.settled k call c hcall hbound).greeted
    rw [(hopenings.connecting τ c conn hopening hconn).sent] at hrest
    cases hrest

/-! ## Executions -/

/-- The event loop neglects no call for ever: one that is broken off in `ws.send`, or whose frame is
sent, goes on. That `ws.send` returns on a live socket is not part of it. -/
structure FairToCalls (x : Execution (step cfg) World.init) : Prop where
  sending : ∀ k owner, x.WeaklyFair (breaksOff k owner)
  waiting : ∀ k owner, x.WeaklyFair (concludes k owner)

/-- The `ws.send` of a call returns if its socket stays live: peers read what they are sent, and the
transport does not await `drain()` for ever. -/
def SendsReturn (x : Execution (step cfg) World.init) : Prop := ∀ k, x.WeaklyFair {e | e = .sent k}

section

variable {x : Execution (step cfg) World.init}

/-- The invariants of runs hold in every state of an execution. -/
theorem sound_of_execution (x : Execution (step cfg) World.init) (n : ℕ) :
    Sound cfg (x.state n) := by
  obtain ⟨es, hrun⟩ := x.run n
  exact sound_of_run hrun

/-- No call of an execution is lost. -/
theorem extends_of_execution {n m : ℕ} (hnm : n ≤ m) :
    (x.state n).rpc.Extends (x.state m).rpc := by
  induction hnm with
  | refl => exact .refl _
  | step _ ih => exact ih.trans (step_moves (sound_of_execution x _).linked (x.next _)).extends

/-- `ws.send` returns or raises, or a live socket holds the call up for ever. -/
theorem sending_or_held (hfair : FairToCalls x) (k : ℕ) (owner : Owner) {n : ℕ}
    (hstands : Stands (x.state n) k owner .sending) :
    (∃ m, n ≤ m ∧ (WaitsFor (x.state m) k owner ∨ HasEnded (x.state m) k owner)) ∨
      ∀ m, n ≤ m → Stands (x.state m) k owner .sending ∧ ∃ call, HeldUp (x.state m) k call := by
  apply (hfair.sending k owner).leadsTo_or_held (P := fun w => Stands w k owner .sending)
    (Q := fun w => WaitsFor w k owner ∨ HasEnded w k owner)
    (H := fun w => ∃ call, HeldUp w k call) ?_ ?_ ?_ ?_ hstands
  · intro n hstands
    rcases phase_of_step (sound_of_execution x n).linked (x.next n) hstands rfl with
      hstays | ⟨-, hwaits⟩ | hended
    · exact .inl hstays
    · exact .inr (.inl hwaits)
    · exact .inr (.inr hended)
  · intro n hstands hheld hstands'
    obtain ⟨es, hrun⟩ := x.run n
    exact released_of_step (sound_of_run hrun) (openings_of_run hrun) (wired_of_run hrun)
      (x.next n) hstands hstands' hheld
  · intro n hstands hheld
    exact sending_enabled (sound_of_execution x n).linked hstands hheld
  · intro n hstands hlabel
    rcases advances_helps (sound_of_execution x n).linked (x.next n)
      (breaksOff_subset k owner hlabel) hstands rfl with ⟨-, hwaits⟩ | hended
    · exact .inl hwaits
    · exact .inr hended

/-- `ws.send` returns or raises, as long as sends on a live socket return. -/
theorem sending_leadsTo (hfair : FairToCalls x) (hsends : SendsReturn x) (k : ℕ) (owner : Owner) :
    x.LeadsTo (fun w => Stands w k owner .sending)
      (fun w => WaitsFor w k owner ∨ HasEnded w k owner) := by
  apply Execution.LeadsTo.of_held (H := fun w => ∃ call, HeldUp w k call) (hsends k)
  · exact fun n hstands => sending_or_held hfair k owner hstands
  · rintro n - ⟨call, hheld⟩
    exact ⟨.sent k, rfl, hheld.enabled⟩
  · intro n hstands hlabel
    rcases advances_helps (sound_of_execution x n).linked (x.next n) (.inl hlabel) hstands rfl with
      ⟨-, hwaits⟩ | hended
    · exact .inl hwaits
    · exact .inr hended

/-- A step leaves a call that waits alone or ends it. -/
theorem waiting_keeps (n : ℕ) (hstands : Stands (x.state n) k owner (.waiting deadline)) :
    Stands (x.state (n + 1)) k owner (.waiting deadline) ∨ HasEnded (x.state (n + 1)) k owner := by
  rcases phase_of_step (sound_of_execution x n).linked (x.next n) hstands rfl with
    hstays | ⟨hsending, -⟩ | hended
  · exact .inl hstays
  · cases hsending
  · exact .inr hended

/-- A call that waits ends once its deadline has passed. -/
theorem waiting_leadsTo (hfair : FairToCalls x) (htime : x.Diverges World.now) (k : ℕ)
    (owner : Owner) : x.LeadsTo (fun w => WaitsFor w k owner) (fun w => HasEnded w k owner) := by
  apply Execution.LeadsTo.of_exists
  intro deadline
  apply (hfair.waiting k owner).leadsTo_of_bound htime deadline
  · intro n hdeadline
    exact hdeadline.trans (step_moves (sound_of_execution x n).linked (x.next n)).now_le
  · exact waiting_keeps
  · intro n hstands hdeadline
    exact waiting_enabled (sound_of_execution x n) hstands hdeadline
  · intro n hstands hlabel
    rcases advances_helps (sound_of_execution x n).linked (x.next n)
      (concludes_subset k owner hlabel) hstands rfl with ⟨hsending, -⟩ | hended
    · cases hsending
    · exact hended

/-- A call that has begun ends, or a live socket holds it up for ever. -/
theorem hasEnded_or_held (hfair : FairToCalls x) (htime : x.Diverges World.now) {n : ℕ}
    (hcall : (x.state n).rpc.calls[k]? = some call) :
    (∃ m, n ≤ m ∧ HasEnded (x.state m) k call.owner) ∨
      ∀ m, n ≤ m → ∃ call', HeldUp (x.state m) k call' := by
  have hwaits := waiting_leadsTo hfair htime k call.owner
  cases hphase : call.phase with
  | sending =>
    rcases sending_or_held hfair k call.owner ⟨call, hcall, rfl, hphase⟩ with
      ⟨m, hnm, hwaiting | hended⟩ | hheld
    · obtain ⟨l, hml, hended⟩ := hwaits m hwaiting
      exact .inl ⟨l, hnm.trans hml, hended⟩
    · exact .inl ⟨m, hnm, hended⟩
    · exact .inr (fun m hnm => (hheld m hnm).2)
  | waiting deadline => exact .inl (hwaits n ⟨deadline, call, hcall, rfl, hphase⟩)
  | ended outcome => exact .inl ⟨n, le_rfl, outcome, call, hcall, rfl, hphase⟩

/-- A call that has begun ends if every `ws.send` on a live socket returns. -/
theorem hasEnded_of_call (hfair : FairToCalls x) (hsends : SendsReturn x)
    (htime : x.Diverges World.now) {n : ℕ} (hcall : (x.state n).rpc.calls[k]? = some call) :
    ∃ m, n ≤ m ∧ HasEnded (x.state m) k call.owner := by
  have hwaits := waiting_leadsTo hfair htime k call.owner
  have hleads := (sending_leadsTo hfair hsends k call.owner).trans (hwaits.or .refl)
  cases hphase : call.phase with
  | sending => exact hleads n ⟨call, hcall, rfl, hphase⟩
  | waiting deadline => exact hwaits n ⟨deadline, call, hcall, rfl, hphase⟩
  | ended outcome => exact ⟨n, le_rfl, outcome, call, hcall, rfl, hphase⟩

/-- A task does not await a call for ever. -/
theorem awaits_leadsTo (hfair : FairToCalls x) (hsends : SendsReturn x)
    (htime : x.Diverges World.now) (τ k : ℕ) (owner : Owner) :
    x.LeadsTo (fun w => (w.body τ).awaits τ = some (owner, k))
      (fun w => (w.body τ).awaits τ ≠ some (owner, k)) := by
  intro n hawaits
  obtain ⟨call, hcall, -⟩ := (sound_of_execution x n).linked.calls hawaits
  obtain ⟨m, hnm, outcome, call', hcall', -, hphase⟩ := hasEnded_of_call hfair hsends htime hcall
  refine ⟨m, hnm, fun hawaits' => ?_⟩
  obtain ⟨call'', hcall'', -, hopen⟩ := (sound_of_execution x m).linked.calls hawaits'
  obtain rfl := Option.some.inj (hcall'.symm.trans hcall'')
  rw [hphase] at hopen
  cases hopen

/-- In every infinite execution in which time goes on and the event loop neglects no call for ever,
every `request()`, `subscribe()`, `unsubscribe()` and ping ends, and nothing is left of it in
`_pending`, or from some time on it is held up for ever in the `ws.send` of a socket that stays
live. -/
theorem calls_end (hfair : FairToCalls x) (htime : x.Diverges World.now) {n : ℕ}
    (hcall : (x.state n).rpc.calls[k]? = some call) :
    (∃ m call' outcome, n ≤ m ∧ (x.state m).rpc.calls[k]? = some call' ∧ Rpc.Same call call' ∧
      call'.phase = .ended outcome ∧
      ∀ key, (x.state m).rpc.pending.futures.lookup key ≠ some k) ∨
    ∀ m, n ≤ m → ∃ call', HeldUp (x.state m) k call' ∧ Rpc.Same call call' := by
  rcases hasEnded_or_held hfair htime hcall with ⟨m, hnm, outcome, call', hcall', -, hphase⟩ | hheld
  swap
  · right
    intro m hnm
    obtain ⟨call', hheld'⟩ := hheld m hnm
    obtain ⟨call'', hcall'', hsame⟩ := extends_of_execution hnm k call hcall
    obtain rfl := Option.some.inj (hheld'.begun.symm.trans hcall'')
    exact ⟨call', hheld', hsame⟩
  left
  obtain ⟨call'', hcall'', hsame⟩ := extends_of_execution hnm k call hcall
  obtain rfl := Option.some.inj (hcall'.symm.trans hcall'')
  refine ⟨m, call', outcome, hnm, hcall', hsame, hphase, ?_⟩
  intro key hslot
  obtain ⟨other, hother, -, hopen⟩ := (sound_of_execution x m).rpc.slot hslot
  obtain rfl := Option.some.inj (hcall'.symm.trans hother)
  rw [hphase] at hopen
  cases hopen

end

/-! ## A client that idles -/

/-- Where no task is told to cancel, no number is that of such a task. -/
theorem World.isCancelled_of_quiet (hquiet : ∀ t ∈ w.tasks, t.cancelled = false) (τ : ℕ) :
    w.isCancelled τ = false := by
  cases ht : w.tasks[τ]? with
  | none => simp [World.isCancelled, ht]
  | some t => simp [World.isCancelled, ht, hquiet t (List.mem_of_getElem? ht)]

/-- Where every task has ended, a number that is no task's counts as ended as well. -/
theorem World.body_of_ended (hended : ∀ t ∈ w.tasks, t.body = .finished) (τ : ℕ) :
    w.body τ = .finished := by
  cases ht : w.tasks[τ]? with
  | none => simp [World.body, ht]
  | some t => simp [World.body, ht, hended t (List.mem_of_getElem? ht)]

/-- A state some seconds later, in which nothing else has happened. -/
def World.later (w : World) (n : ℕ) : World := { w with now := w.now + n }

/-- Nothing happens any more but that time goes on. -/
def World.idle (cfg : Config) (w : World) : Execution (step cfg) w where
  state := w.later
  label _ := .tick 1
  init := by simp [World.later]
  next n := by simp [step, World.later, add_assoc]

/-- In an idle client the clock goes up by one in each step, and so without bound. -/
theorem diverges_idle (cfg : Config) (w : World) : (w.idle cfg).Diverges World.now := by
  intro bound n
  obtain ⟨m, hm⟩ := exists_nat_ge (bound - w.now)
  refine ⟨n + m, Nat.le_add_right n m, ?_⟩
  have hn : (0 : ℚ) ≤ n := Nat.cast_nonneg n
  simp only [World.idle, World.later, Nat.cast_add]
  linarith

/-- No label of a call is enabled once all calls have ended and no task is to be cancelled. -/
theorem advances_disabled (hended : ∀ call ∈ w.rpc.calls, call.phase.isEnded = true)
    (hquiet : ∀ t ∈ w.tasks, t.cancelled = false) (he : e ∈ advances k owner) (n : ℕ) :
    step cfg (w.later n) e = none := by
  have hcall : ((w.later n).callStep cfg k e) = none := by
    cases hk : w.rpc.calls[k]? with
    | none => simp [World.callStep, World.later, hk]
    | some call =>
      have hphase := hended call (List.mem_of_getElem? hk)
      cases hphase' : call.phase with
      | ended outcome => simp [World.callStep, World.later, hk, hphase']
      | sending => simp [hphase', Phase.isEnded] at hphase
      | waiting deadline => simp [hphase', Phase.isEnded] at hphase
  have hcancel (τ : ℕ) : (w.later n).isCancelled τ = false := World.isCancelled_of_quiet hquiet τ
  rcases he with rfl | rfl | rfl | rfl | ⟨τ, -, rfl⟩
  · exact hcall
  · exact hcall
  · exact hcall
  · exact hcall
  · simp [step, hcancel]

section

variable {x : Execution (step cfg) World.init} {n : ℕ}

/-- A client whose calls have ended, and none of whose tasks is to be cancelled, may idle. -/
theorem fairToCalls_of_idle (hx : x.Continues n (w.idle cfg))
    (hended : ∀ call ∈ w.rpc.calls, call.phase.isEnded = true)
    (hquiet : ∀ t ∈ w.tasks, t.cancelled = false) : FairToCalls x where
  sending k owner := hx.weaklyFair (.of_disabled (fun m _ he =>
    advances_disabled hended hquiet (breaksOff_subset k owner he) m))
  waiting k owner := hx.weaklyFair (.of_disabled (fun m _ he =>
    advances_disabled hended hquiet (concludes_subset k owner he) m))

/-- The sends of an idle client return, since no call is sending. -/
theorem sendsReturn_of_idle (hx : x.Continues n (w.idle cfg))
    (hended : ∀ call ∈ w.rpc.calls, call.phase.isEnded = true)
    (hquiet : ∀ t ∈ w.tasks, t.cancelled = false) : SendsReturn x :=
  fun k => hx.weaklyFair (.of_disabled (fun m _ he =>
    advances_disabled hended hquiet (.inl he : _ ∈ advances k .application) m))

end

/-- A call that nobody answers ends with its timeout. -/
theorem calls_end_lonely :
    ∃ (x : Execution (step (.sample .kraken none)) World.init) (n m : ℕ) (call call' : Call),
      FairToCalls x ∧ x.Diverges World.now ∧ n ≤ m ∧ (x.state n).rpc.calls[0]? = some call ∧
        call.phase = .waiting 10 ∧ (x.state m).rpc.calls[0]? = some call' ∧
        call'.phase.isEnded = true := by
  obtain ⟨v, hfirst, call, hcall, hphase⟩ :
      ∃ v, Run (step (.sample .kraken none)) always World.init lonelyEvents v ∧
        ∃ call ∈ v.rpc.calls[0]?, call.phase = .waiting 10 := Run.exists_of_exec (by decide +kernel)
  obtain ⟨w, hall, hended, hquiet⟩ :
      ∃ w, Run (step (.sample .kraken none)) always World.init (lonelyEvents ++ lonelyEnd) w ∧
        (∀ call ∈ w.rpc.calls, call.phase.isEnded = true) ∧
          ∀ t ∈ w.tasks, t.cancelled = false := Run.exists_of_exec (by decide +kernel)
  obtain ⟨v', hfirst', hrest⟩ := hall.of_append
  obtain rfl := hfirst.unique hfirst'
  obtain ⟨y, hy⟩ := Execution.exists_continues hrest (w.idle _)
  obtain ⟨x, hx⟩ := Execution.exists_continues hfirst y
  have hidle := hx.trans hy
  have hfair : FairToCalls x := fairToCalls_of_idle hidle hended hquiet
  have htime : x.Diverges World.now := hidle.diverges (diverges_idle _ w)
  have hstate : x.state lonelyEvents.length = v := (hx.state 0).trans y.init
  have hcall : (x.state lonelyEvents.length).rpc.calls[0]? = some call := by rw [hstate, hcall]
  rcases calls_end hfair htime hcall with ⟨m, call', outcome, hnm, hcall', -, hphase', -⟩ | hheld
  · exact ⟨x, _, m, call, call', hfair, htime, hnm, hcall, hphase, hcall', by rw [hphase']; rfl⟩
  · -- its frame is sent, so no socket holds it up
    obtain ⟨held, hheld, -⟩ := hheld _ le_rfl
    obtain rfl := Option.some.inj (hcall.symm.trans hheld.begun)
    have hsending := hheld.sending
    rw [hphase] at hsending
    cases hsending

end ProxyClient.Websocket
