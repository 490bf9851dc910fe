import ProxyClient.Websocket.Deadlines
import ProxyClient.Websocket.Lifecycle
import ProxyClient.Websocket.Wire

/-!
# The heartbeat task

The heartbeat sleeps, pings, and closes the connection when its ping times out. It never pings
twice within its interval, and it closes only a connection that is still the current one, and
only after a ping that went out on that very connection stayed without an answer.
-/

namespace ProxyClient.Websocket

open Transition

variable {cfg : Config} {w w' : World} {e : Event} {η k c : ℕ} {conn : Option ℕ}
  {pc : HeartbeatAt} {es : List Event}

/-- The pause between two pings, `heartbeat_interval` if it is set. -/
def Config.interval (cfg : Config) : ℚ := cfg.heartbeatInterval.getD 0

/-- Why the heartbeat closes a connection in a step. -/
structure ClosesFor (w : World) (e : Event) (k c : ℕ) : Prop where
  event : e = .timeout k
  unanswered : w.rpc.future k = some .pending
  current : w.conn = some c
  isOpen : w.isOpen c = true
  overdue : ∃ call deadline, w.rpc.calls[k]? = some call ∧ call.phase = .waiting deadline ∧
    deadline ≤ w.now

/-- What a step makes of the heartbeat task that takes it. -/
inductive Beats (cfg : Config) (w : World) (e : Event) (η : ℕ) (pc : HeartbeatAt) (w' : World) :
    Body → Prop
  | stays : Beats cfg w e η pc w' (.heartbeat pc)
  | sleeps : Beats cfg w e η pc w' (.heartbeat (.sleeping (w.now + cfg.interval)))
  | rests : Beats cfg w e η pc w' (.heartbeat (.resting (w.now + 1)))
  /-- A ping goes out on the connection that is current. -/
  | pings {wake : ℚ} {k : ℕ} {call : Call} : e = .wake η → pc = .sleeping wake →
      w'.rpc.calls[k]? = some call → call.conn = w.conn →
      Beats cfg w e η pc w' (.heartbeat (.pinging k w.conn))
  | closes {k c : ℕ} : pc = .pinging k (some c) → ClosesFor w e k c →
      Beats cfg w e η pc w' (.heartbeat (.closing c))
  | ends : Beats cfg w e η pc w' .finished

/-! ## Steps of the task -/

/-- Where the body of `_heartbeat_loop` takes the task from its sleep. -/
theorem body_heartbeatPing (cfg : Config) (hlt : η < w.tasks.length) :
    (∃ k call, (w.heartbeatPing cfg η).body η = .heartbeat (.pinging k w.conn) ∧
      (w.heartbeatPing cfg η).rpc.calls[k]? = some call ∧ call.conn = w.conn) ∨
    (w.heartbeatPing cfg η).body η = .heartbeat (.resting (w.now + 1)) ∨
    (w.heartbeatPing cfg η).body η = .finished := by
  unfold World.heartbeatPing
  split
  · rcases perform_cases cfg w (.heartbeat η) .ping with ⟨err, -, hperform⟩ |
      ⟨call, -, -, -, -, hperform⟩ | ⟨call, c, -, -, hframed, hbound, hperform⟩
    · simp only [hperform]
      exact .inr (.inl (World.body_setBody_self _ hlt))
    · simp only [hperform]
      exact .inr (.inl (World.body_setBody_self _ hlt))
    · simp only [hperform]
      have hsend : w.sendConn = some c := hframed.conn.symm.trans hbound
      have hheld : w.conn = some c := (Option.filter_eq_some_iff.mp hsend).1
      refine .inl ⟨_, call, World.body_setBody_self _ hlt, ?_, hbound.trans hheld.symm⟩
      simp [World.launched, Rpc.register]
  · exact .inr (.inr (World.body_setBody_self _ hlt))

namespace Beats

/-- The stage of a task that goes on is the stage it goes to. -/
theorem of_setBody {w₁ : World} {b : Body} (hlt : η < w₁.tasks.length)
    (h : Beats cfg w e η pc w' b) : Beats cfg w e η pc w' ((w₁.setBody η b).body η) := by
  rwa [World.body_setBody_self b hlt]

/-- At the head of its loop the heartbeat sleeps for a whole interval, or finds the client
stopped. -/
theorem heartbeatLoop {w₁ : World} (hlt : η < w₁.tasks.length) (hnow : w₁.now = w.now) :
    Beats cfg w e η pc w' ((w₁.heartbeatLoop cfg η).body η) := by
  unfold World.heartbeatLoop
  split
  · rw [hnow]
    exact of_setBody hlt .sleeps
  · exact of_setBody hlt .ends

/-- When it wakes, it sends its ping, rests because the connection is not open, or ends. -/
theorem heartbeatPing {wake : ℚ} (hlt : η < w.tasks.length) :
    Beats cfg w (.wake η) η (.sleeping wake) (w.heartbeatPing cfg η)
      ((w.heartbeatPing cfg η).body η) := by
  rcases body_heartbeatPing cfg hlt with ⟨k, call, hb, hcall, hbound⟩ | hb | hb
  · exact hb ▸ .pings rfl rfl hcall hbound
  · exact hb ▸ .rests
  · exact hb ▸ .ends

/-- The heartbeat goes on after its ping, and the step leads to one of the stages. -/
theorem conclude (hsound : Sound cfg w) (hb : w.body η = .heartbeat (.pinging k conn))
    {call : Call} {outcome : Outcome} (hcall : w.rpc.calls[k]? = some call)
    (howner : call.owner = .heartbeat η) (hends : Ends w e k call outcome) :
    Beats cfg w e η (.pinging k conn) (w.conclude cfg k outcome)
      ((w.conclude cfg k outcome).body η) := by
  have hlt : η < w.tasks.length := World.lt_of_body_ne (by simp [hb])
  have hlt' : η < (w.endCall cfg k outcome).tasks.length := by rwa [tasks_endCall]
  have hnow : (w.endCall cfg k outcome).now = w.now := now_endCall cfg w k outcome
  simp only [World.conclude, hcall, howner, World.resumeOwner, body_endCall, hb, if_true]
  unfold World.heartbeatPinged
  split
  · exact heartbeatLoop hlt' hnow
  · split
    · rename_i c
      split
      · rename_i hopen
        apply of_setBody hlt'
        rw [conn_endCall, World.isOpen, conns_endCall] at hopen
        cases hends with
        | failed _ _ hfuture => cases hsound.rpc.failed hfuture
        | @timeout deadline he hphase hdeadline hpending =>
          exact .closes rfl
            ⟨he, hpending, hopen.1, hopen.2, call, deadline, hcall, hphase, hdeadline⟩
      · exact heartbeatLoop hlt' hnow
    · exact heartbeatLoop hlt' hnow
  · exact of_setBody hlt' .ends
  · rw [hnow]
    exact of_setBody hlt' .rests

/-- A step of the task that no call of its own takes. -/
theorem of_task (hb : w.body η = .heartbeat pc) (htask : e.task = some η)
    (h : step cfg w e = some w') : Beats cfg w e η pc w' (w'.body η) := by
  have hlt : η < w.tasks.length := World.lt_of_body_ne (by simp [hb])
  cases e <;> cases htask
  case run =>
    have hstep := step_guarded h
    cases pc with
    | ready =>
      simp only [World.runStep, hb, Option.some.injEq] at hstep
      exact hstep ▸ heartbeatLoop hlt rfl
    | _ => simp [World.runStep, hb] at hstep
  case wake =>
    have hstep := step_guarded h
    cases pc with
    | sleeping wake =>
      simp only [World.wakeStep, hb] at hstep
      split at hstep
      · cases hstep
        exact heartbeatPing hlt
      · cases hstep
    | resting wake =>
      simp only [World.wakeStep, hb] at hstep
      split at hstep
      · cases hstep
        exact heartbeatLoop hlt rfl
      · cases hstep
    | _ => simp [World.wakeStep, hb] at hstep
  case closeDone =>
    have hstep := step_guarded h
    cases pc with
    | closing c =>
      simp only [World.closeDoneStep, hb, Option.some.injEq] at hstep
      exact hstep ▸ heartbeatLoop hlt rfl
    | _ => simp [World.closeDoneStep, hb] at hstep
  case deliverCancel =>
    simp only [step] at h
    split at h
    · have hends : w'.body η = .finished := by
        cases pc <;> simp only [World.cancelStep, hb, Option.some.injEq] at h <;> rw [← h] <;>
          apply World.body_setBody_self
        all_goals simpa using hlt
      rw [hends]
      exact .ends
    · cases h
  all_goals
    simp [step, World.openStep, World.opening?, World.recvStep, World.socketEndStep,
      World.callbackCallStep, World.callbackEndStep, World.stopStep, hb] at h

/-- What any step makes of the heartbeat task that takes it. -/
theorem of_acts (hsound : Sound cfg w) (hb : w.body η = .heartbeat pc) (hact : Acts w e η)
    (h : step cfg w e = some w') : Beats cfg w e η pc w' (w'.body η) := by
  have hlt : η < w.tasks.length := World.lt_of_body_ne (by simp [hb])
  cases hact with
  | stop => omega
  | task htask => exact of_task hb htask h
  | @call e k call _ hcallNo hcall htask =>
    have hstep : w.callStep cfg k e = some w' := by
      cases e <;> cases hcallNo <;> exact h
    obtain ⟨call', hcall', hopen, hcases⟩ := callStep_cases hcallNo hstep
    obtain rfl := Option.some.inj (hcall.symm.trans hcall')
    rcases hcases with ⟨-, deadline, rfl⟩ | ⟨outcome, hends, rfl⟩
    · have hstays : w.body η = .heartbeat pc := hb
      exact hstays ▸ .stays
    · rcases Body.awaits_cases (hsound.linked.awaited hcall hopen htask) with
        ⟨-, a, c, f, cb, hb'⟩ | ⟨-, a, rest, hb'⟩ | ⟨howner, conn, hb'⟩
      · cases hb.symm.trans hb'
      · cases hb.symm.trans hb'
      · obtain rfl := Body.heartbeat.inj (hb.symm.trans hb')
        exact conclude hsound hb' hcall howner hends

end Beats

/-- Where a heartbeat task stands after a step: where it stood, or where the step takes it, or it
is new. -/
theorem heartbeat_of_step (hsound : Sound cfg w) (h : step cfg w e = some w')
    (hb' : w'.body η = .heartbeat pc) :
    w.body η = .heartbeat pc ∨
      (∃ pc₀, w.body η = .heartbeat pc₀ ∧ Beats cfg w e η pc₀ w' (.heartbeat pc)) ∨
        (w.body η = .finished ∧ pc = .ready) := by
  have hmoves := step_moves hsound.linked h
  have hrole : (w'.body η).role = .heartbeat := by rw [hb']; rfl
  rcases hmoves.role η with hdone | hsame | ⟨hle, hcreates⟩
  · rw [hrole] at hdone
    cases hdone
  · obtain ⟨pc₀, hb⟩ : ∃ pc₀, w.body η = .heartbeat pc₀ := by
      rw [hrole] at hsame
      cases hb : w.body η <;> rw [hb] at hsame <;> cases hsame
      exact ⟨_, rfl⟩
    by_cases hact : Acts w e η
    · exact .inr (.inl ⟨pc₀, hb, hb' ▸ Beats.of_acts hsound hb hact h⟩)
    · rw [hmoves.body_of_not_acts hact (by simp [hb])] at hb'
      exact .inl hb'
  · have hnone : w.body η = .finished := by
      by_contra hne
      exact absurd (World.lt_of_body_ne hne) (by omega)
    rw [hrole] at hcreates
    cases hcreates with
    | @heartbeat τ c stage hreturns hb =>
      have hlt : τ < w.tasks.length := World.lt_of_body_ne (by simp [hb])
      have hne : η ≠ τ := by omega
      have unchanged {conns : List Connection} {b : Body}
          (hnew : (World.setBody { w with conns := conns } τ b).body η = .heartbeat pc) :
          False := by
        rw [World.body_setBody_of_ne _ hne] at hnew
        cases hnone.symm.trans hnew
      cases Starts.of_acts hsound hb (.task (by rw [hreturns.event]; rfl)) h with
      | goes => exact (unchanged hb').elim
      | fails => exact (unchanged hb').elim
      | @returns conns =>
        rcases body_started cfg { w with conns := conns } τ η with hold | ⟨-, hnew⟩ | ⟨-, hnew⟩
        · exact (unchanged (hold.symm.trans hb')).elim
        · cases hnew.symm.trans hb'
        · exact .inr (.inr ⟨hnone, Body.heartbeat.inj (hb'.symm.trans hnew)⟩)

/-! ## The pace of the pings -/

/-- When the heartbeat task pings in a step. -/
def pingTime (η : ℕ) (w : World) (e : Event) : Option ℚ :=
  match w.body η with
  | .heartbeat (.sleeping _) => if e = .wake η ∧ w.running = true then some w.now else none
  | _ => none

/-- The pings so far keep the interval, and the next one will. -/
structure Paced (cfg : Config) (η : ℕ) (times : List ℚ) (w : World) : Prop where
  spaced : times.Pairwise (fun s t => s + cfg.interval ≤ t)
  past : ∀ s ∈ times, s ≤ w.now
  sleeping : ∀ wake, w.body η = .heartbeat (.sleeping wake) → ∀ s ∈ times, s + cfg.interval ≤ wake

/-- A ping goes out when the heartbeat wakes from the sleep of its interval. -/
theorem pingTime_eq_some {t : ℚ} (h : pingTime η w e = some t) :
    e = .wake η ∧ t = w.now ∧ ∃ wake, w.body η = .heartbeat (.sleeping wake) := by
  unfold pingTime at h
  split at h
  · rename_i wake hb
    split at h
    · rename_i hping
      exact ⟨hping.1, (Option.some.inj h).symm, wake, hb⟩
    · cases h
  · cases h

/-- The heartbeat pings only when its sleep is over, and does not sleep right after it. -/
theorem step_of_pingTime {t : ℚ} (hping : pingTime η w e = some t)
    (h : step cfg w e = some w') :
    t = w.now ∧ (∃ wake, w.body η = .heartbeat (.sleeping wake) ∧ wake ≤ w.now) ∧
      ∀ wake, w'.body η ≠ .heartbeat (.sleeping wake) := by
  obtain ⟨rfl, rfl, wake, hb⟩ := pingTime_eq_some hping
  have hlt : η < w.tasks.length := World.lt_of_body_ne (by simp [hb])
  have hstep := step_guarded h
  simp only [World.wakeStep, hb] at hstep
  split at hstep
  · rename_i hwake
    cases hstep
    refine ⟨rfl, ⟨wake, hb, hwake⟩, ?_⟩
    rcases body_heartbeatPing cfg hlt with ⟨k, call, hb', -⟩ | hb' | hb' <;> simp [hb']
  · cases hstep

/-- Each step adds at most one ping to those that were sent, no earlier than the interval allows. -/
theorem Paced.step {times : List ℚ} (hpaced : Paced cfg η times w) (hsound : Sound cfg w)
    (h : step cfg w e = some w') : Paced cfg η (times ++ (pingTime η w e).toList) w' := by
  have hnow := (step_moves hsound.linked h).now_le
  cases hping : pingTime η w e with
  | none =>
    rw [Option.toList_none, List.append_nil]
    refine ⟨hpaced.spaced, fun s hs => (hpaced.past s hs).trans hnow, ?_⟩
    intro wake hb' s hs
    rcases heartbeat_of_step hsound h hb' with hb | ⟨pc₀, hb, hbeats⟩ | ⟨-, hready⟩
    · exact hpaced.sleeping wake hb s hs
    · cases hbeats with
      | stays => exact hpaced.sleeping wake hb s hs
      | sleeps => exact add_le_add_left (hpaced.past s hs) _
    · cases hready
  | some t =>
    obtain ⟨rfl, ⟨wake, hb, hwake⟩, hawake⟩ := step_of_pingTime hping h
    rw [Option.toList_some]
    refine ⟨?_, ?_, fun wake hb' => absurd hb' (hawake wake)⟩
    · rw [List.pairwise_append]
      refine ⟨hpaced.spaced, List.pairwise_singleton _ _, ?_⟩
      intro s hs t ht
      rw [List.mem_singleton.mp ht]
      exact (hpaced.sleeping wake hb s hs).trans hwake
    · intro s hs
      rcases List.mem_append.mp hs with hold | hnew
      · exact (hpaced.past s hold).trans hnow
      · rw [List.mem_singleton.mp hnew]
        exact hnow

/-- In every run the pings of a heartbeat task are at least `heartbeat_interval` apart. -/
theorem pings_spaced (hrun : Run (step cfg) always World.init es w) (η : ℕ) :
    (outputs (step cfg) (pingTime η) World.init es).Pairwise
      (fun s t => s + cfg.interval ≤ t) := by
  suffices hpaced : Paced cfg η (outputs (step cfg) (pingTime η) World.init es) w from
    hpaced.spaced
  induction hrun with
  | nil => exact ⟨.nil, by simp [outputs], by simp [outputs]⟩
  | snoc hes _ hstep ih =>
    rw [hes.outputs_snoc hstep]
    exact ih.step (sound_of_run hes) hstep

/-- A client that pings every five seconds gets no answer to its first ping. -/
def silentEvents : List Event := startEvents ++ [.run 2, .tick 5, .wake 2, .sent 0, .tick 10]

/-- It closes the connection, reconnects late, and pings again. -/
def pingAgain : List Event := [.timeout 0, .closeDone 2, .tick 5, .wake 2]

/-- The server does not answer the first ping, which goes out after five seconds. The heartbeat
wakes for the second at twenty, an interval after the close of the connection. -/
theorem pings_spaced_silent :
    ∃ w, Run (step (.sample .kraken (some 5))) always World.init (silentEvents ++ pingAgain) w ∧
      outputs (step (.sample .kraken (some 5))) (pingTime 2) World.init
        (silentEvents ++ pingAgain) = [5, 20] ∧
      (outputs (step (.sample .kraken (some 5))) (pingTime 2) World.init
        (silentEvents ++ pingAgain)).Pairwise (fun s t => s + 5 ≤ t) := by
  obtain ⟨w, hrun⟩ :
      ∃ w, Run (step (.sample .kraken (some 5))) always World.init (silentEvents ++ pingAgain) w :=
    Run.exists_of_isSome (by decide +kernel)
  exact ⟨w, hrun, by decide +kernel, pings_spaced hrun 2⟩

/-! ## The connection it closes -/

/-- A ping of the heartbeat is bound to the connection that the heartbeat remembers. -/
def Bound (w : World) : Prop :=
  ∀ (η k : ℕ) conn, w.body η = .heartbeat (.pinging k conn) →
    ∃ call, w.rpc.calls[k]? = some call ∧ call.conn = conn

/-- The heartbeat remembers the connection on which it sent its ping, in every run. -/
theorem bound_of_run {ok : World → Event → Prop}
    (hrun : Run (step cfg) ok World.init es w) : Bound w := by
  refine hrun.invariant_of (fun hrun => sound_of_run hrun) (by simp [Bound, World.init, World.body])
    ?_
  rintro t e v hsound - hbound - hstep η k conn hb'
  have old (hb : t.body η = .heartbeat (.pinging k conn)) :
      ∃ call, v.rpc.calls[k]? = some call ∧ call.conn = conn := by
    obtain ⟨call, hcall, hconn⟩ := hbound η k conn hb
    obtain ⟨call', hcall', hsame⟩ := (step_moves hsound.linked hstep).extends k call hcall
    exact ⟨call', hcall', hsame.conn.trans hconn⟩
  rcases heartbeat_of_step hsound hstep hb' with hb | ⟨pc₀, hb, hbeats⟩ | ⟨-, hready⟩
  · exact old hb
  · cases hbeats with
    | stays => exact old hb
    | pings _ _ hcall hconn => exact ⟨_, hcall, hconn⟩
  · cases hready

/-- A ping that went out on a connection has got no answer for as long as it was to wait. -/
structure Unanswered (cfg : Config) (es : List Event) (w : World) (η k c : ℕ) : Prop where
  call : ∃ call deadline, w.rpc.calls[k]? = some call ∧ call.op = .ping ∧
    call.owner = .heartbeat η ∧ call.conn = some c ∧ SentFor cfg es w k call deadline ∧
    deadline ≤ w.now
  /-- Its frame was handed to the socket of the connection. -/
  sent : ∃ conn, w.conns[c]? = some conn ∧ k ∈ conn.callsSent
  pending : w.rpc.future k = some .pending

/-- In every run the heartbeat closes a connection only if it is the current one and open, and its
ping that went out on this connection has stayed without an answer for `heartbeat_timeout`. -/
theorem heartbeat_closes_unanswered (hrun : Run (step cfg) always World.init es w)
    (hstep : step cfg w e = some w') (hcloses : w'.body η = .heartbeat (.closing c))
    (hbegins : w.body η ≠ .heartbeat (.closing c)) :
    w.conn = some c ∧ w.isOpen c = true ∧ ∃ k, e = .timeout k ∧ Unanswered cfg es w η k c := by
  have hsound := sound_of_run hrun
  rcases heartbeat_of_step hsound hstep hcloses with hb | ⟨pc₀, hb, hbeats⟩ | ⟨-, hready⟩
  · exact absurd hb hbegins
  · cases hbeats with
    | stays => exact absurd hb hbegins
    | @closes k c hpc hfor =>
      subst hpc
      obtain ⟨call, deadline, hcall, hphase, hdeadline⟩ := hfor.overdue
      obtain ⟨call', hcall', hbound⟩ := bound_of_run hrun η k (some c) hb
      obtain rfl := Option.some.inj (hcall.symm.trans hcall')
      have hawaits : (w.body η).awaits η = some (.heartbeat η, k) := by
        rw [hb]
        rfl
      obtain ⟨call', hcall', howner, -⟩ := hsound.linked.calls hawaits
      obtain rfl := Option.some.inj (hcall.symm.trans hcall')
      have hop := (fitting_of_run hrun hcall).heartbeat η howner
      have hsent := sent_of_pastSend hrun hcall (by rw [hphase]; rfl)
      obtain ⟨call', c', conn, hcall', hbound', hconn, hsent⟩ :=
        (wired_of_run hrun).owned.begun hsent
      obtain rfl := Option.some.inj (hcall.symm.trans hcall')
      obtain rfl := Option.some.inj (hbound.symm.trans hbound')
      refine ⟨hfor.current, hfor.isOpen, k, hfor.event, ?_, ⟨conn, hconn, hsent⟩, hfor.unanswered⟩
      exact ⟨call, deadline, hcall, hop, howner, hbound, sentFor_of_waiting hrun hcall hphase,
        hdeadline⟩
  · cases hready

/-- The silent server is such a connection, and the ping times out on it. -/
theorem heartbeat_closes_unanswered_silent :
    ∃ w, Run (step (.sample .kraken (some 5))) always World.init silentEvents w ∧
      w.conn = some 0 ∧ w.isOpen 0 = true ∧
        ∃ k, Event.timeout 0 = .timeout k ∧
          Unanswered (.sample .kraken (some 5)) silentEvents w 2 k 0 := by
  obtain ⟨w, hrun, hbody, w', hstep, hcloses⟩ :
      ∃ w, Run (step (.sample .kraken (some 5))) always World.init silentEvents w ∧
        w.body 2 = .heartbeat (.pinging 0 (some 0)) ∧
        ∃ w' ∈ step (.sample .kraken (some 5)) w (.timeout 0),
          w'.body 2 = .heartbeat (.closing 0) := Run.exists_of_exec (by decide +kernel)
  exact ⟨w, hrun, heartbeat_closes_unanswered hrun hstep hcloses (by simp [hbody])⟩

end ProxyClient.Websocket
