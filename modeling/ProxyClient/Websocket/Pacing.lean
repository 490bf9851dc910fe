import ProxyClient.Websocket.Attempts
import ProxyClient.Websocket.Openings
import Mathlib.Data.List.Chain

/-!
# The pace of the reconnects

Between two reconnects the supervise task asks the policy, with the next number of the failure
streak or with 0, and sleeps as long as the policy says. A client therefore never reconnects
faster than its policy allows, however its connections end.
-/

namespace ProxyClient.Websocket

open Transition

variable {cfg : Config} {w w' : World} {e : Event} {es : List Event} {σ a c k : ℕ}
  {pc : SuperviseAt} {policy : ℕ → Policy}

/-! ## A client without a policy -/

/-! A client whose reconnect is disabled builds no connection in its supervise task. What a step
does to the task outside of the sleep and of the return of `_pump` does not depend on the policy,
so that this is true of such steps under every policy. -/

/-- A handler that calls a method of the client may spawn the call's task, but builds no
connection. -/
theorem conns_length_callbackCallStep {op : Operation} (hb : w.body σ = .supervise a pc)
    (h : w.callbackCallStep cfg σ op = some w') : w'.conns.length = w.conns.length := by
  cases pc with
  | inCallback c f cb =>
    simp only [World.callbackCallStep, hb] at h
    rcases perform_cases cfg w (.callback σ) op with
      ⟨err, -, hperform⟩ | ⟨call, -, -, -, -, hperform⟩ | ⟨call, c', -, -, -, -, hperform⟩
    · rw [hperform] at h
      cases h
      rfl
    · rw [hperform] at h
      cases h
      rfl
    · rw [hperform] at h
      cases h
      simp [World.launched]
  | _ => simp [World.callbackCallStep, hb] at h

section Disabled

variable (hnone : cfg.reconnect = none)

include hnone

/-- Without a policy the supervise task ends when `_pump` returns, and builds no connection. -/
theorem conns_length_pumpReturned (w : World) (σ a : ℕ) (lastError : Option Exc) :
    (w.pumpReturned cfg σ a lastError).conns.length = w.conns.length := by
  unfold World.pumpReturned
  split
  · simp [World.decideReconnect, hnone]
  · rfl

/-- Going back to `recv` builds no connection. -/
theorem conns_length_read (w : World) (σ a c : ℕ) :
    (w.read cfg σ a c).conns.length = w.conns.length := by
  unfold World.read
  split
  · exact conns_length_pumpReturned hnone w σ a _
  · rfl

/-- Nor does the head of the pump. -/
theorem conns_length_beginPump (w : World) (σ a : ℕ) :
    (w.beginPump cfg σ a).conns.length = w.conns.length := by
  unfold World.beginPump
  split
  · split
    · exact conns_length_pumpReturned hnone w σ a _
    · split
      · exact conns_length_read hnone w σ a _
      · exact conns_length_pumpReturned hnone w σ a _
  · rfl

/-- A replay sends requests on the connection that there is. -/
theorem conns_length_replayNext (w : World) (σ a : ℕ) (entries : List Entry) :
    (w.replayNext cfg σ a entries).conns.length = w.conns.length := by
  cases entries with
  | nil => exact conns_length_beginPump hnone w σ a
  | cons entry rest =>
    obtain ⟨channel, params⟩ := entry
    unfold World.replayNext
    rcases perform_cases cfg w (.replay σ) (.subscribe channel (some params) false) with
      ⟨err, -, hperform⟩ | ⟨call, -, -, -, -, hperform⟩ | ⟨call, c, -, -, -, -, hperform⟩
    · simp only [hperform]
      rfl
    · simp only [hperform]
      rfl
    · simp [hperform, World.launched]

/-- Calling the handlers of a frame builds no connection. -/
theorem conns_length_runHandlers (w : World) (σ a c : ℕ) (f : Inbound) (handlers : List ℕ)
    (wildcard : Bool) :
    (w.runHandlers cfg σ a c f handlers wildcard).conns.length = w.conns.length := by
  unfold World.runHandlers
  split
  · rfl
  · split
    · split
      · rfl
      · exact conns_length_read hnone w σ a c
    · exact conns_length_read hnone w σ a c

/-- Nor does handing it to them. -/
theorem conns_length_deliver (w : World) (σ a c : ℕ) (f : Inbound) :
    (w.deliver cfg σ a c f).conns.length = w.conns.length := by
  unfold World.deliver
  simp only
  split
  · exact conns_length_read hnone w σ a c
  · split
    · exact conns_length_pumpReturned hnone w σ a _
    · exact conns_length_runHandlers hnone w σ a c f _ true

/-- Nor does the dispatch that comes before. -/
theorem conns_length_dispatch (w : World) (σ a c : ℕ) (f : Inbound) :
    (w.dispatch cfg σ a c f).conns.length = w.conns.length := by
  unfold World.dispatch
  split
  · simp only
    split
    · rw [conns_length_pumpReturned hnone]
      simp
    · split
      · rw [conns_length_read hnone]
        simp
      · rw [conns_length_deliver hnone]
        simp
  · exact conns_length_pumpReturned hnone w σ a _

/-- A reconnect that failed goes on to the pump before another is built. -/
theorem conns_length_openFailed (w : World) (τ : ℕ) :
    (w.openFailed cfg τ).conns.length = w.conns.length := by
  unfold World.openFailed
  split
  · exact conns_length_beginPump hnone w τ _
  · rfl

/-- A reconnect that succeeded goes on to its replay. -/
theorem conns_length_opened (hb : w.body σ = .supervise a pc) :
    (w.opened cfg σ c).conns.length = w.conns.length := by
  unfold World.opened
  simp only
  split
  · rw [conns_length_replayNext hnone]
    simp
  · rename_i hother
    exact absurd hb (hother a pc)

/-- So without a policy the steps inside `open()` build none either. -/
theorem conns_length_openStep (hb : w.body σ = .supervise a pc) (htask : e.task = some σ)
    (h : w.openStep cfg σ e = some w') : w'.conns.length = w.conns.length := by
  have hstage (w : World) (stage : OpenStage) : (w.setStage σ stage).conns = w.conns := by
    unfold World.setStage
    split <;> rfl
  obtain ⟨c, stage, -, hopens⟩ := openStep_cases htask h
  cases hopens with
  | connected => simp [hstage]
  | sent => rw [hstage]
  | raised => exact conns_length_openFailed hnone w σ
  | refused =>
    rw [conns_length_openFailed hnone]
    simp
  | accepted =>
    rw [conns_length_opened hnone (by exact hb)]
    simp

/-- Resuming the task to make its next step builds no connection: at most it goes on to pump. -/
theorem conns_length_runStep (hb : w.body σ = .supervise a pc) (h : w.runStep cfg σ = some w') :
    w'.conns.length = w.conns.length := by
  cases pc with
  | ready =>
    simp only [World.runStep, hb, Option.some.injEq] at h
    exact h ▸ conns_length_beginPump hnone w σ a
  | _ => simp [World.runStep, hb] at h

/-- Reading a frame builds no connection, also where the frame makes `_pump` return. -/
theorem conns_length_recvStep (hb : w.body σ = .supervise a pc)
    (h : w.recvStep cfg σ = some w') : w'.conns.length = w.conns.length := by
  cases pc with
  | reading c =>
    simp only [World.recvStep, hb] at h
    split at h
    · split at h
      · split at h <;> cases h
        · simp
        · rw [conns_length_pumpReturned hnone]
          simp
        · simp
      · cases h
        rw [conns_length_pumpReturned hnone]
        simp
    · cases h
  | _ => simp [World.recvStep, hb] at h

/-- Finding the socket at its end makes `_pump` return, and builds no connection. -/
theorem conns_length_socketEndStep (hb : w.body σ = .supervise a pc)
    (h : w.socketEndStep cfg σ = some w') : w'.conns.length = w.conns.length := by
  cases pc with
  | reading c =>
    simp only [World.socketEndStep, hb] at h
    split at h <;> cases h
    · exact conns_length_pumpReturned hnone w σ a _
    · exact conns_length_pumpReturned hnone w σ a _
  | _ => simp [World.socketEndStep, hb] at h

/-- A handler that ends makes way for the dispatch, the next handler or the return of `_pump`,
none of which builds a connection. -/
theorem conns_length_callbackEndStep {result : CallbackResult}
    (hb : w.body σ = .supervise a pc) (h : w.callbackEndStep cfg σ result = some w') :
    w'.conns.length = w.conns.length := by
  cases pc with
  | inCallback c f cb =>
    simp only [World.callbackEndStep, hb] at h
    split at h <;> cases h
    · exact conns_length_pumpReturned hnone w σ a _
    · exact conns_length_dispatch hnone w σ a c f
    · exact conns_length_runHandlers hnone w σ a c f _ _
  | _ => simp [World.callbackEndStep, hb] at h

/-- Waking the task builds a connection only at the end of the sleep of the backoff. -/
theorem conns_length_wakeStep (hb : w.body σ = .supervise a pc) (hpc : pc.backsOff = false)
    (h : w.wakeStep cfg σ = some w') : w'.conns.length = w.conns.length := by
  cases pc with
  | backingOff wake => cases hpc
  | replayGap wake rest =>
    simp only [World.wakeStep, hb] at h
    split at h
    · cases h
      exact conns_length_replayNext hnone w σ a rest
    · cases h
  | _ => simp [World.wakeStep, hb] at h

/-- Cancelling the task ends it, or makes `_pump` return, and builds no connection. -/
theorem conns_length_cancelStep (hb : w.body σ = .supervise a pc)
    (h : w.cancelStep cfg σ = some w') : w'.conns.length = w.conns.length := by
  cases pc with
  | reading c =>
    simp only [World.cancelStep, hb, Option.some.injEq] at h
    exact h ▸ conns_length_pumpReturned hnone w σ a _
  | _ =>
    simp only [World.cancelStep, hb, Option.some.injEq] at h
    rw [← h]
    simp

/-- No step that resumes the task outside of the sleep builds a connection. -/
theorem conns_length_of_task (hb : w.body σ = .supervise a pc) (hpc : pc.backsOff = false)
    (htask : e.task = some σ) (h : step cfg w e = some w') :
    w'.conns.length = w.conns.length := by
  cases e <;> cases htask
  case connected | connectFailed | authSent | authSendFailed | authReply | authTimeout
      | authClosed => exact conns_length_openStep hnone hb rfl (step_guarded h)
  case run => exact conns_length_runStep hnone hb (step_guarded h)
  case recv => exact conns_length_recvStep hnone hb (step_guarded h)
  case socketEnd => exact conns_length_socketEndStep hnone hb (step_guarded h)
  case callbackCall => exact conns_length_callbackCallStep hb (step_guarded h)
  case callbackEnd => exact conns_length_callbackEndStep hnone hb (step_guarded h)
  case wake => exact conns_length_wakeStep hnone hb hpc (step_guarded h)
  case deliverCancel =>
    simp only [step] at h
    split at h
    · exact conns_length_cancelStep hnone hb h
    · cases h
  all_goals simp [step, World.closeDoneStep, World.stopStep, hb] at h

/-- No step of the task outside of the sleep builds a connection. -/
theorem conns_length_of_acts (hsound : Sound cfg w) (hb : w.body σ = .supervise a pc)
    (hpc : pc.backsOff = false) (hact : Acts w e σ) (h : step cfg w e = some w') :
    w'.conns.length = w.conns.length := by
  have hlt : σ < w.tasks.length := World.lt_of_body_ne (by simp [hb])
  cases hact with
  | stop => omega
  | task htask => exact conns_length_of_task hnone hb hpc htask h
  | @call e k call _ he hcall htask =>
    have hstep : w.callStep cfg k e = some w' := by
      cases e <;> cases he <;> exact h
    obtain ⟨call', hcall', hopen, hcases⟩ := callStep_cases he hstep
    obtain rfl := Option.some.inj (hcall.symm.trans hcall')
    rcases hcases with ⟨-, deadline, rfl⟩ | ⟨outcome, -, rfl⟩
    · rfl
    · rcases Body.awaits_cases (hsound.linked.awaited hcall hopen htask) with
        ⟨howner, a', c, f, cb, hb'⟩ | ⟨howner, a', rest, hb'⟩ | ⟨-, conn, hb'⟩
      · simp [World.conclude, hcall, howner, World.resumeOwner, body_endCall, hb']
      · simp only [World.conclude, hcall, howner, World.resumeOwner, body_endCall, hb', if_true]
        split <;> simp
      · cases hb.symm.trans hb'

end Disabled

/-! ## Steps of the supervise task -/

/-- The policy asks for a delay before an attempt. -/
def Config.Waits (cfg : Config) (attempt : ℕ) (delay : ℚ) : Prop :=
  ∃ policy, cfg.reconnect = some policy ∧ policy attempt = .wait delay

/-- An attempt comes next in the streak, or begins a new one. -/
def NextAttempt (a a' : ℕ) : Prop := a' = a + 1 ∨ a' = 0

/-- The count goes up by one, unless the connection before was up long enough to reset it. -/
theorem nextAttempt_next (w : World) (a : ℕ) : NextAttempt a (w.nextAttempt a) := by
  unfold World.nextAttempt
  split
  · exact .inr rfl
  · exact .inl rfl

/-- Where a step takes the supervise task that takes it. -/
inductive Paces (cfg : Config) (w : World) (a : ℕ) (pc : SuperviseAt) : Body → Prop
  | ends : Paces cfg w a pc .finished
  | goes {pc' : SuperviseAt} : pc.backsOff = false → pc'.backsOff = false →
      (∀ c stage, pc' = .opening c stage → c < w.conns.length) →
      Paces cfg w a pc (.supervise a pc')
  /-- The policy asks for a sleep. -/
  | sleeps {a' : ℕ} {delay : ℚ} : pc.backsOff = false → NextAttempt a a' → cfg.Waits a' delay →
      Paces cfg w a pc (.supervise a' (.backingOff (w.now + delay)))
  /-- The policy asks for none. -/
  | hurries {a' c : ℕ} {delay : ℚ} : pc.backsOff = false → NextAttempt a a' →
      cfg.Waits a' delay → delay ≤ 0 → w.conns.length ≤ c →
      Paces cfg w a pc (.supervise a' (.opening c .connecting))
  | wakes {wake : ℚ} : pc = .backingOff wake → wake ≤ w.now →
      Paces cfg w a pc (.supervise a (.opening w.conns.length .connecting))

namespace Paces

/-- A step of a task in the sleep. -/
theorem of_sleep {wake : ℚ} (hb : w.body σ = .supervise a (.backingOff wake))
    (htask : e.task = some σ) (h : step cfg w e = some w') :
    Paces cfg w a (.backingOff wake) (w'.body σ) := by
  have hlt : σ < w.tasks.length := World.lt_of_body_ne (by simp [hb])
  cases e <;> cases htask
  case wake =>
    have hstep := step_guarded h
    simp only [World.wakeStep, hb] at hstep
    split at hstep
    · rename_i hwake
      split at hstep <;> cases hstep
      · have hopens : (w.beginReconnect σ a).body σ =
            .supervise a (.opening w.conns.length .connecting) := World.body_setBody_self _ hlt
        rw [hopens]
        exact .wakes rfl hwake
      · rw [World.body_setBody_self _ hlt]
        exact .ends
    · cases hstep
  case deliverCancel =>
    simp only [step, World.cancelStep, hb] at h
    split at h <;> cases h
    rw [World.body_setBody_self _ hlt]
    exact .ends
  all_goals
    simp [step, World.openStep, World.opening?, World.runStep, World.recvStep,
      World.socketEndStep, World.callbackCallStep, World.callbackEndStep, World.closeDoneStep,
      World.stopStep, hb] at h

/-- `_pump` has returned, and the policy sets the pace of what comes next. -/
theorem pumpReturned {conns : List Connection} {rpc : Rpc} (hpc : pc.backsOff = false)
    (hlt : σ < w.tasks.length) (hlength : conns.length = w.conns.length)
    (lastError : Option Exc) : Paces cfg w a pc
      ((World.pumpReturned cfg { w with conns := conns, rpc := rpc } σ a lastError).body σ) := by
  set w₁ : World := { w with conns := conns, rpc := rpc } with hw₁
  have hlt₁ : σ < w₁.tasks.length := hlt
  by_cases hrun : w₁.running = true
  · cases hpolicy : cfg.reconnect with
    | none =>
      have hends : (w₁.pumpReturned cfg σ a lastError).body σ = .finished := by
        simp [World.pumpReturned, World.decideReconnect, hrun, hpolicy, World.body, hlt₁]
      rw [hends]
      exact .ends
    | some policy =>
      rcases pumpReturned_cases (a := a) hlt₁ hrun hpolicy lastError with
        ⟨-, -, hb'⟩ | ⟨-, hb'⟩ | ⟨delay, hwait, -, hnext⟩
      · rw [hb']
        exact .ends
      · rw [hb']
        exact .ends
      · have hwaits : cfg.Waits (w₁.nextAttempt a) delay := ⟨policy, hpolicy, hwait⟩
        set w₂ : World := { w₁ with rpc := w₁.rpc.failAll (World.asConnectionError lastError) }
        have hlt₂ : σ < w₂.tasks.length := hlt
        rw [hnext]
        split
        · rw [World.body_setBody_self _ hlt₂]
          exact .sleeps hpc (nextAttempt_next w₁ a) hwaits
        · rename_i hdelay
          have hopens : (w₂.beginReconnect σ (w₁.nextAttempt a)).body σ =
              .supervise (w₁.nextAttempt a) (.opening conns.length .connecting) :=
            World.body_setBody_self _ hlt₂
          rw [hopens]
          exact .hurries hpc (nextAttempt_next w₁ a) hwaits (not_lt.mp hdelay) hlength.ge
  · rw [pumpReturned_stopped (by simpa using hrun), World.body_setBody_self _ hlt₁]
    exact .ends

/-- What any step makes of the task that takes it. -/
theorem of_acts (hsound : Sound cfg w) (hopenings : Openings w)
    (hb : w.body σ = .supervise a pc) (hact : Acts w e σ) (h : step cfg w e = some w') :
    Paces cfg w a pc (w'.body σ) := by
  have hlt : σ < w.tasks.length := World.lt_of_body_ne (by simp [hb])
  by_cases hpc : pc.backsOff = true
  · obtain ⟨wake, rfl⟩ : ∃ wake, pc = .backingOff wake := by
      cases pc <;> cases hpc
      exact ⟨_, rfl⟩
    have hn : (w.body σ).awaits σ = none := by rw [hb]; rfl
    exact of_sleep hb (task_of_acts hsound.linked h hact hlt hn) h
  · have hawake : pc.backsOff = false := by simpa using hpc
    have hsound' : Sound (cfg.withPolicy none) w := ⟨hsound.linked, hsound.rpc, hsound.attached⟩
    have hdrives := Drives.of_acts hsound hb hact
    generalize hnext : (fun policy => step (cfg.withPolicy policy) w e) = next at hdrives
    have hreal : next cfg.reconnect = some w' := hnext ▸ h
    have hprobe := congrFun hnext none
    cases hdrives with
    | disabled => cases hreal
    | cancels _ hb' =>
      obtain rfl := Option.some.inj hreal
      rw [hb']
      exact .ends
    | steers hsteers =>
      obtain rfl := Option.some.inj hreal
      have hlength := conns_length_of_acts rfl hsound' hb hawake hact hprobe
      cases hsteers with
      | returned conns rpc lastError =>
        rw [conns_length_pumpReturned rfl] at hlength
        exact pumpReturned hawake hlt hlength lastError
      | goes hb' hpc' =>
        rw [hb']
        refine .goes hawake hpc' ?_
        rintro c stage rfl
        have hbound := (hopenings.step hsound h).bound σ c stage (by simp [World.opening?, hb'])
        exact hbound.trans_eq hlength
      | ends _ hb' =>
        rw [hb']
        exact .ends

end Paces

/-! ## The reconnects of a run -/

/-- The number of an attempt to reconnect and the time at which it begins. -/
structure Reconnect where
  attempt : ℕ
  time : ℚ
  deriving DecidableEq

/-- The reconnect that a supervise task begins in a step: it is about to connect a connection
that did not exist before. -/
def reconnectIn (cfg : Config) (σ : ℕ) (w : World) (e : Event) : Option Reconnect :=
  match (step cfg w e).map (fun u : World => u.body σ) with
  | some (.supervise attempt (.opening c .connecting)) =>
    if w.conns.length ≤ c then some ⟨attempt, w.now⟩ else none
  | _ => none

/-- A reconnect is the next one of a streak or the first of a new one, and comes after the delay
that the policy asked for before it. -/
structure Follows (cfg : Config) (r r' : Reconnect) : Prop where
  next : NextAttempt r.attempt r'.attempt
  paced : ∃ delay, cfg.Waits r'.attempt delay ∧ r.time + delay ≤ r'.time

/-- The reconnects so far keep the pace, and the next one will. -/
structure Rested (cfg : Config) (σ : ℕ) (reconnects : List Reconnect) (w : World) : Prop where
  paced : reconnects.IsChain (Follows cfg)
  past : ∀ r ∈ reconnects.getLast?, r.time ≤ w.now
  awake : ∀ a pc, w.body σ = .supervise a pc → pc.backsOff = false →
    ∀ r ∈ reconnects.getLast?, r.attempt = a
  asleep : ∀ a wake, w.body σ = .supervise a (.backingOff wake) →
    ∀ r ∈ reconnects.getLast?, Follows cfg r ⟨a, wake⟩
  fresh : w.tasks.length ≤ σ → reconnects = []

/-- A step after which the task connects a new connection begins a reconnect, at the time of the
step. -/
theorem reconnectIn_of_opening (h : step cfg w e = some w')
    (hb' : w'.body σ = .supervise a (.opening c .connecting)) (hnew : w.conns.length ≤ c) :
    reconnectIn cfg σ w e = some ⟨a, w.now⟩ := by
  simp [reconnectIn, h, hb', hnew]

/-- A step after which it does not begins none. -/
theorem reconnectIn_eq_none (h : step cfg w e = some w')
    (hold : ∀ a c, w'.body σ = .supervise a (.opening c .connecting) → c < w.conns.length) :
    reconnectIn cfg σ w e = none := by
  unfold reconnectIn
  split
  · rename_i a c hbody
    rw [h] at hbody
    have hlt := hold a c (Option.some.inj hbody)
    rw [if_neg (by omega)]
  · rfl

namespace Rested

variable {reconnects : List Reconnect}

/-- Before the first reconnect there is no pace to keep. -/
theorem init : Rested cfg σ [] World.init where
  paced := .nil
  past r h := by cases h
  awake a pc _ _ r h := by cases h
  asleep a wake _ r h := by cases h
  fresh _ := rfl

/-- A reconnect begins, as late as the policy asked for after the one before. -/
theorem reconnect (h : Rested cfg σ reconnects w) (hlt : σ < w'.tasks.length)
    (hnow : w.now ≤ w'.now) (hb' : w'.body σ = .supervise a (.opening c .connecting))
    (hfollows : ∀ r ∈ reconnects.getLast?, Follows cfg r ⟨a, w.now⟩) :
    Rested cfg σ (reconnects ++ [⟨a, w.now⟩]) w' where
  paced := by
    rw [List.isChain_append]
    refine ⟨h.paced, .singleton _, ?_⟩
    rintro r hr r' ⟨⟩
    exact hfollows r hr
  past r hr := by
    rw [List.getLast?_concat] at hr
    cases hr
    exact hnow
  awake a' pc hb'' _ r hr := by
    rw [List.getLast?_concat] at hr
    cases hr
    exact (Body.supervise.inj (hb'.symm.trans hb'')).1
  asleep a' wake hb'' := by
    rw [hb'] at hb''
    cases hb''
  fresh hle := by omega

/-- The task does not begin a reconnect, and the pace is kept while it waits. -/
theorem quiet (h : Rested cfg σ reconnects w) (hnow : w.now ≤ w'.now)
    (hlength : w.tasks.length ≤ w'.tasks.length)
    (hawake : ∀ a pc, w'.body σ = .supervise a pc → pc.backsOff = false →
      ∀ r ∈ reconnects.getLast?, r.attempt = a)
    (hasleep : ∀ a wake, w'.body σ = .supervise a (.backingOff wake) →
      ∀ r ∈ reconnects.getLast?, Follows cfg r ⟨a, wake⟩) : Rested cfg σ reconnects w' where
  paced := h.paced
  past r hr := (h.past r hr).trans hnow
  awake := hawake
  asleep := hasleep
  fresh hle := h.fresh (hlength.trans hle)

/-- The task takes a step, which begins a reconnect or not. -/
theorem acts (h : Rested cfg σ reconnects w) (hsound : Sound cfg w) (hopenings : Openings w)
    (hb : w.body σ = .supervise a pc) (hact : Acts w e σ)
    (hstep : Websocket.step cfg w e = some w') :
    Rested cfg σ (reconnects ++ (reconnectIn cfg σ w e).toList) w' := by
  have hmoves := step_moves hsound.linked hstep
  have hnow := hmoves.now_le
  have hlength := hmoves.tasks_length
  have hlt : σ < w'.tasks.length := (World.lt_of_body_ne (by simp [hb])).trans_le hlength
  have hpaces := Paces.of_acts hsound hopenings hb hact hstep
  generalize hb' : w'.body σ = b at hpaces
  have quiet' (hold : ∀ a c, b = .supervise a (.opening c .connecting) → c < w.conns.length)
      (hawake : ∀ a pc, b = .supervise a pc → pc.backsOff = false →
        ∀ r ∈ reconnects.getLast?, r.attempt = a)
      (hasleep : ∀ a wake, b = .supervise a (.backingOff wake) →
        ∀ r ∈ reconnects.getLast?, Follows cfg r ⟨a, wake⟩) :
      Rested cfg σ (reconnects ++ (reconnectIn cfg σ w e).toList) w' := by
    rw [reconnectIn_eq_none hstep (hb' ▸ hold), Option.toList_none, List.append_nil]
    exact h.quiet hnow hlength (hb' ▸ hawake) (hb' ▸ hasleep)
  cases hpaces with
  | ends => exact quiet' nofun nofun nofun
  | goes hpc hpc' hold =>
    refine quiet' ?_ ?_ ?_
    · rintro a' c ⟨⟩
      exact hold c _ rfl
    · rintro a' pc' ⟨⟩ _
      exact h.awake a pc hb hpc
    · rintro a' wake ⟨⟩
      cases hpc'
  | @sleeps a' delay hpc hnext hwaits =>
    refine quiet' nofun ?_ ?_
    · rintro a' pc' ⟨⟩ ⟨⟩
    · rintro a' wake ⟨⟩ r hr
      have hattempt := h.awake a pc hb hpc r hr
      exact ⟨hattempt ▸ hnext, delay, hwaits, add_le_add_left (h.past r hr) _⟩
  | @hurries a' c delay hpc hnext hwaits hdelay hnew =>
    rw [reconnectIn_of_opening hstep hb' hnew, Option.toList_some]
    refine h.reconnect hlt hnow hb' ?_
    intro r hr
    have hattempt := h.awake a pc hb hpc r hr
    have hpast := h.past r hr
    exact ⟨hattempt ▸ hnext, delay, hwaits, by linarith⟩
  | @wakes wake hpc hwake =>
    rw [reconnectIn_of_opening hstep hb' le_rfl, Option.toList_some]
    refine h.reconnect hlt hnow hb' ?_
    intro r hr
    obtain ⟨hnext, delay, hwaits, hpaced⟩ := h.asleep a wake (hpc ▸ hb) r hr
    exact ⟨hnext, delay, hwaits, hpaced.trans hwake⟩

/-- Every step keeps the pace, whether or not it is a step of the task. -/
theorem step (h : Rested cfg σ reconnects w) (hsound : Sound cfg w) (hopenings : Openings w)
    (hstep : step cfg w e = some w') :
    Rested cfg σ (reconnects ++ (reconnectIn cfg σ w e).toList) w' := by
  have hmoves := step_moves hsound.linked hstep
  by_cases hsupervise : ∃ a pc, w.body σ = .supervise a pc
  · obtain ⟨a, pc, hb⟩ := hsupervise
    by_cases hact : Acts w e σ
    · exact h.acts hsound hopenings hb hact hstep
    · have hsame : w'.body σ = w.body σ := hmoves.body_of_not_acts hact (by simp [hb])
      have hnone : reconnectIn cfg σ w e = none := by
        refine reconnectIn_eq_none hstep (fun a c hb' => hopenings.bound σ c .connecting ?_)
        simp [World.opening?, ← hsame, hb']
      rw [hnone, Option.toList_none, List.append_nil]
      exact h.quiet hmoves.now_le hmoves.tasks_length (hsame ▸ h.awake) (hsame ▸ h.asleep)
  · have hready : ∀ a pc, w'.body σ = .supervise a pc → reconnects = [] ∧ pc = .ready := by
      intro a pc hb'
      by_cases hle : w.tasks.length ≤ σ
      · have hcreated := body_of_created hsound hstep hle hb'
        exact ⟨h.fresh hle, (Body.supervise.inj (hb'.symm.trans hcreated)).2⟩
      · have hrole : (w'.body σ).role = .supervise := by rw [hb']; rfl
        rcases hmoves.role σ with hdone | hsame | ⟨hle', -⟩
        · rw [hrole] at hdone
          cases hdone
        · rw [hrole] at hsame
          obtain ⟨a', pc', hb⟩ := Body.role_eq_supervise.mp hsame.symm
          exact absurd ⟨a', pc', hb⟩ hsupervise
        · exact absurd hle' hle
    have hnone : reconnectIn cfg σ w e = none := by
      refine reconnectIn_eq_none hstep (fun a c hb' => ?_)
      cases (hready a _ hb').2
    rw [hnone, Option.toList_none, List.append_nil]
    refine h.quiet hmoves.now_le hmoves.tasks_length ?_ ?_
    · intro a pc hb' _ r hr
      rw [(hready a pc hb').1] at hr
      cases hr
    · intro a wake hb' r hr
      rw [(hready a _ hb').1] at hr
      cases hr

end Rested

/-- The default policy waits as long as it is documented to. -/
theorem Config.Waits.default {attempt : ℕ} {delay : ℚ} (h : cfg.Waits attempt delay)
    (hdefault : cfg.reconnect = some defaultPolicy) : delay = documentedDelay attempt := by
  obtain ⟨policy, hpolicy, hwait⟩ := h
  obtain rfl := Option.some.inj (hpolicy.symm.trans hdefault)
  by_cases hle : attempt ≤ 1024
  · rw [defaultPolicy, defaultBackoff_of_le hle] at hwait
    exact (Policy.wait.inj hwait).symm
  · rw [defaultPolicy, defaultBackoff_of_gt (by omega)] at hwait
    cases hwait

/-- In every run, the reconnects of a supervise task come at the pace of the policy: between one
and the next lies at least the delay that the policy gives for the number of the next, and that
number is one more, or 0 where a streak begins anew. Under the default policy they are half a
second apart or more, and the pause doubles up to thirty seconds. -/
theorem reconnects_paced (hrun : Run (step cfg) always World.init es w) (σ : ℕ) :
    (outputs (step cfg) (reconnectIn cfg σ) World.init es).IsChain (Follows cfg) ∧
    (cfg.reconnect = some defaultPolicy →
      (outputs (step cfg) (reconnectIn cfg σ) World.init es).IsChain
        (fun r r' => r.time + documentedDelay r'.attempt ≤ r'.time)) := by
  have hrested : Rested cfg σ (outputs (step cfg) (reconnectIn cfg σ) World.init es) w := by
    induction hrun with
    | nil => exact .init
    | snoc hes _ hstep ih =>
      rw [hes.outputs_snoc hstep]
      exact ih.step (sound_of_run hes) (openings_of_run hes) hstep
  refine ⟨hrested.paced, fun hdefault => hrested.paced.imp ?_⟩
  rintro r r' ⟨-, delay, hwaits, hpaced⟩
  rwa [hwaits.default hdefault] at hpaced

/-- A client whose connection ends reconnects twice, as the first attempt is refused. -/
def reconnectTwice : List Event := startEvents ++
  [.sockClosed 0 true, .socketEnd 1, .tick (1 / 2), .wake 1, .connectFailed 1, .tick 1, .wake 1]

/-- The policy asks for half a second before each attempt, and the second attempt begins a second
after the first. -/
theorem reconnects_paced_refused :
    ∃ w, Run (step (.sample .kraken none)) always World.init reconnectTwice w ∧
      outputs (step (.sample .kraken none)) (reconnectIn (.sample .kraken none) 1) World.init
        reconnectTwice = [⟨1, 1 / 2⟩, ⟨2, 3 / 2⟩] ∧
      Follows (.sample .kraken none) ⟨1, 1 / 2⟩ ⟨2, 3 / 2⟩ := by
  obtain ⟨w, hrun⟩ : ∃ w, Run (step (.sample .kraken none)) always World.init reconnectTwice w :=
    Run.exists_of_isSome (by decide +kernel)
  have houtputs : outputs (step (.sample .kraken none)) (reconnectIn (.sample .kraken none) 1)
      World.init reconnectTwice = [⟨1, 1 / 2⟩, ⟨2, 3 / 2⟩] := by decide +kernel
  have hchain := (reconnects_paced hrun 1).1
  rw [houtputs] at hchain
  exact ⟨w, hrun, houtputs, hchain.rel⟩

end ProxyClient.Websocket
