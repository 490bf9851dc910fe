import ProxyClient.Websocket.Heartbeat
import ProxyClient.Websocket.Reconnects

/-!
# The heartbeat task never gets stuck

Wherever the heartbeat task stands, it comes to its next ping if time goes on and it is not
neglected. A ping that is not answered does not leave the client with the same connection for
good: the task closes it, and `ws.close()` returns.
-/

namespace ProxyClient.Websocket

open Transition Transition.Execution

variable {cfg : Config} {w w' : World} {e : Event} {η k c : ℕ} {pc : HeartbeatAt}
  {conn : Option ℕ}

/-! ## Where the task stands -/

/-- A heartbeat task that is not to be cancelled is suspended at a point. -/
structure Watches (η : ℕ) (pc : HeartbeatAt) (w : World) : Prop where
  free : w.isCancelled η = false
  body : w.body η = .heartbeat pc

/-- The task sleeps before a ping, or it has ended. -/
def Sleeps (η : ℕ) (w : World) : Prop :=
  (∃ wake, Watches η (.sleeping wake) w) ∨ Retires η w

/-- A heartbeat at one of its suspension points is one of the tasks that were created. -/
theorem Watches.lt (h : Watches η pc w) : η < w.tasks.length :=
  World.lt_of_body_ne (by simp [h.body])

/-- A heartbeat is at a point of its loop, unless it is to be cancelled. -/
theorem watches_or_retires (hb : w.body η = .heartbeat pc) : Watches η pc w ∨ Retires η w := by
  cases hfree : w.isCancelled η with
  | false => exact .inl ⟨hfree, hb⟩
  | true => exact .inr (.inr hfree)

/-- A heartbeat that goes on is no longer to be cancelled. -/
theorem watches_setBody (hlt : η < w.tasks.length) :
    Watches η pc (w.setBody η (.heartbeat pc)) where
  free := by simp [World.isCancelled, hlt]
  body := World.body_setBody_self _ hlt

/-- At the head of its loop it sleeps, or ends with the client. -/
theorem sleeps_heartbeatLoop (hlt : η < w.tasks.length) : Sleeps η (w.heartbeatLoop cfg η) := by
  unfold World.heartbeatLoop
  split
  · exact .inl ⟨_, watches_setBody hlt⟩
  · exact .inr (retires_finish hlt)

/-! ## Steps of the task -/

/-- A step leaves the task where it is, unless the task takes it. -/
theorem Watches.stays (h : Watches η pc w) (hsound : Sound cfg w) (hact : ¬Acts w e η)
    (hstep : step cfg w e = some w') : Watches η pc w' ∨ Retires η w' := by
  apply watches_or_retires
  rw [(step_moves hsound.linked hstep).body_of_not_acts hact (by simp [h.body]), h.body]

/-- A label that names the task is one of four. -/
theorem Watches.event (h : Watches η pc w) (htask : e.task = some η)
    (hstep : step cfg w e = some w') : e = .run η ∨ e = .wake η ∨ e = .closeDone η := by
  cases e <;> cases htask
  case run => exact .inl rfl
  case wake => exact .inr (.inl rfl)
  case closeDone => exact .inr (.inr rfl)
  all_goals
    simp [step, h.free, World.openStep, World.opening?, World.recvStep, World.socketEndStep,
      World.callbackCallStep, World.callbackEndStep, World.stopStep, h.body] at hstep

/-- So it does in its first step. -/
theorem Watches.ready_step (h : Watches η .ready w) (htask : e.task = some η)
    (hstep : step cfg w e = some w') : Sleeps η w' := by
  rcases h.event htask hstep with rfl | rfl | rfl
  · simp only [step, h.free, World.runStep, h.body, Bool.false_eq_true, if_false,
      Option.some.injEq] at hstep
    exact hstep ▸ sleeps_heartbeatLoop h.lt
  · simp [step, h.free, World.wakeStep, h.body] at hstep
  · simp [step, h.free, World.closeDoneStep, h.body] at hstep

/-- And so it does when it wakes from the rest after a failed ping. -/
theorem Watches.resting_step {wake : ℚ} (h : Watches η (.resting wake) w)
    (htask : e.task = some η) (hstep : step cfg w e = some w') : Sleeps η w' := by
  rcases h.event htask hstep with rfl | rfl | rfl
  · simp [step, h.free, World.runStep, h.body] at hstep
  · simp only [step, h.free, World.wakeStep, h.body, Bool.false_eq_true, if_false] at hstep
    split at hstep <;> cases hstep
    exact sleeps_heartbeatLoop h.lt
  · simp [step, h.free, World.closeDoneStep, h.body] at hstep

/-- The task goes on with its loop when the socket has closed. -/
theorem Watches.closing_step (h : Watches η (.closing c) w) (htask : e.task = some η)
    (hstep : step cfg w e = some w') : Sleeps η w' ∧ w'.isOpen c = false := by
  rcases h.event htask hstep with rfl | rfl | rfl
  · simp [step, h.free, World.runStep, h.body] at hstep
  · simp [step, h.free, World.wakeStep, h.body] at hstep
  · simp only [step, h.free, World.closeDoneStep, h.body, Bool.false_eq_true, if_false,
      Option.some.injEq] at hstep
    subst hstep
    refine ⟨sleeps_heartbeatLoop h.lt, ?_⟩
    have hopen : (w.modifyConn c Connection.endClose).isOpen c = false := by
      cases hconn : w.conns[c]? with
      | none => simp [World.isOpen, hconn]
      | some conn =>
        have hdetached : conn.endClose.attached = false := by
          unfold Connection.endClose
          split <;> rfl
        simp [World.isOpen, hconn, Connection.isOpen, hdetached]
    unfold World.heartbeatLoop
    split <;> exact hopen

/-- `_conn` holds a connection, and it is open. -/
def Current (c : ℕ) (w : World) : Prop := w.conn = some c ∧ w.isOpen c = true

/-- A call has ended, and not because it timed out. -/
def InTime (k : ℕ) (w : World) : Prop :=
  ∃ call outcome, w.rpc.calls[k]? = some call ∧ call.phase = .ended outcome ∧
    outcome ≠ .raised .timeoutError

/-- A ping has ended, or it has timed out and its connection is given up or being closed. -/
def Detected (η k : ℕ) (conn : Option ℕ) (w : World) : Prop :=
  InTime k w ∨ ∀ c ∈ conn, ¬Current c w ∨ Watches η (.closing c) w

/-- Where a ping takes the task, and what has become of the connection. -/
structure Pinged (η k : ℕ) (conn : Option ℕ) (w : World) : Prop where
  goes : Sleeps η w ∨ (∃ c, Watches η (.closing c) w) ∨ ∃ wake, Watches η (.resting wake) w
  detects : Retires η w ∨ Detected η k conn w

/-- The call that ends is the call that it was, with its outcome. -/
theorem call_endCall {call : Call} (hcall : w.rpc.calls[k]? = some call) (outcome : Outcome) :
    (w.endCall cfg k outcome).rpc.calls[k]? = some { call with phase := .ended outcome } := by
  rw [endCall_eq]
  simp [Rpc.finish, hcall]

/-- The head of the loop leaves the current connection as it is. -/
theorem current_heartbeatLoop : Current c (w.heartbeatLoop cfg η) ↔ Current c w := by
  unfold World.heartbeatLoop
  split <;> rfl

/-- `_heartbeat_loop` goes on after its ping in one of these ways. -/
theorem pinged_heartbeatPinged {outcome : Outcome} {call : Call} (hlt : η < w.tasks.length)
    (hcall : w.rpc.calls[k]? = some call) (hphase : call.phase = .ended outcome) :
    Pinged η k conn (w.heartbeatPinged cfg η conn outcome) := by
  have looped (hdetects : Detected η k conn (w.heartbeatLoop cfg η)) :
      Pinged η k conn (w.heartbeatLoop cfg η) := ⟨.inl (sleeps_heartbeatLoop hlt), .inr hdetects⟩
  unfold World.heartbeatPinged
  split
  · refine looped (.inl ⟨call, _, ?_, hphase, by simp⟩)
    rwa [calls_heartbeatLoop]
  · split
    · rename_i c
      split
      · refine ⟨.inr (.inl ⟨c, watches_setBody (by exact hlt)⟩), .inr (.inr ?_)⟩
        intro c' hc'
        obtain rfl := Option.some.inj hc'
        exact .inr (watches_setBody (by exact hlt))
      · rename_i hgone
        refine looped (.inr ?_)
        intro c' hc'
        obtain rfl := Option.some.inj hc'
        exact .inl (fun hcurrent => hgone (current_heartbeatLoop.mp hcurrent))
    · refine looped (.inr ?_)
      intro c hc
      cases hc
  · exact ⟨.inl (.inr (retires_finish hlt)), .inl (retires_finish hlt)⟩
  · rename_i hne _
    refine ⟨.inr (.inr ⟨_, watches_setBody hlt⟩), .inr (.inl ⟨call, _, hcall, hphase, ?_⟩)⟩
    rintro heq
    exact hne (Outcome.raised.inj heq)

/-- A ping goes on in a step, or it ends. -/
theorem Watches.pinging_step (h : Watches η (.pinging k conn) w) (hsound : Sound cfg w)
    (hact : Acts w e η) (hstep : step cfg w e = some w') :
    Watches η (.pinging k conn) w' ∨ Pinged η k conn w' := by
  have hawaits : (w.body η).awaits η = some (.heartbeat η, k) := by simp [h.body, Body.awaits]
  rcases concludes_of_acts hsound h.free hawaits hact hstep with
    ⟨rpc, rfl⟩ | ⟨call, outcome, hcall, howner, rfl⟩
  · exact .inl ⟨h.free, h.body⟩
  · refine .inr ?_
    simp only [World.conclude, hcall, howner, World.resumeOwner, body_endCall, h.body, if_true]
    apply pinged_heartbeatPinged _ (call_endCall hcall outcome) rfl
    rw [tasks_endCall]
    exact h.lt

/-- The task pings when its sleep is over, or it ends. -/
theorem Watches.sleeping_step {wake : ℚ} (h : Watches η (.sleeping wake) w)
    (htask : e.task = some η) (hstep : step cfg w e = some w') :
    (∃ t, pingTime η w e = some t) ∨ Retires η w' := by
  rcases h.event htask hstep with rfl | rfl | rfl
  · simp [step, h.free, World.runStep, h.body] at hstep
  · cases hrun : w.running with
    | true => exact .inl ⟨w.now, by simp [pingTime, h.body, hrun]⟩
    | false =>
      simp only [step, h.free, World.wakeStep, h.body, World.heartbeatPing, hrun,
        Bool.false_eq_true, if_false] at hstep
      split at hstep <;> cases hstep
      exact .inr (retires_finish h.lt)
  · simp [step, h.free, World.closeDoneStep, h.body] at hstep

/-! ## Fair executions -/

/-- Time goes on, every `ws.send` on a live socket returns, and neither a call nor a step of the
heartbeat task is neglected for ever. -/
structure FairToHeartbeat (x : Execution (step cfg) World.init) (η : ℕ) : Prop where
  time : x.Diverges World.now
  calls : FairToCalls x
  /-- Peers read the frames of pings: `heartbeat_timeout` runs only from the return of the send. -/
  sends : SendsReturn x
  run : x.WeaklyFair {e | e = .run η}
  wake : x.WeaklyFair {e | e = .wake η}
  close : x.WeaklyFair {e | e = .closeDone η}

section

variable {x : Execution (step cfg) World.init} {Q : World → Prop} {labels : Set Event}

/-- Until the task takes a step it stays where it is, unless it is told to cancel. -/
theorem watches_keeps (hpc : (Body.heartbeat pc).awaits η = none)
    (hretires : ∀ w, Retires η w → Q w)
    (hacts : ∀ {w e w'}, Watches η pc w → e.task = some η → step cfg w e = some w' → Q w')
    (n : ℕ) (h : Watches η pc (x.state n)) :
    Watches η pc (x.state (n + 1)) ∨ Q (x.state (n + 1)) := by
  have hsound := sound_of_execution x n
  by_cases hact : Acts (x.state n) (x.label n) η
  · have htask := task_of_acts hsound.linked (x.next n) hact h.lt (by rw [h.body]; exact hpc)
    exact .inr (hacts h htask (x.next n))
  · exact (h.stays hsound hact (x.next n)).imp_right (hretires _)

/-- The first step of the task is taken. -/
theorem ready_leadsTo (hfair : FairToHeartbeat x η) :
    x.LeadsTo (Watches η .ready) (Sleeps η) := by
  apply hfair.run.leadsTo
  · exact watches_keeps rfl (fun _ h => .inr h) Watches.ready_step
  · intro n h
    exact ⟨.run η, rfl, by simp [step, h.free, World.runStep, h.body]⟩
  · rintro n h he
    exact h.ready_step (by rw [he]; rfl) (x.next n)

/-- The rest after an error ends, and the task sleeps before its next ping. -/
theorem resting_leadsTo (hfair : FairToHeartbeat x η) (wake : ℚ) :
    x.LeadsTo (Watches η (.resting wake)) (Sleeps η) := by
  apply hfair.wake.leadsTo_of_bound hfair.time wake
  · intro n hwake
    exact hwake.trans (step_moves (sound_of_execution x n).linked (x.next n)).now_le
  · exact watches_keeps rfl (fun _ h => .inr h) Watches.resting_step
  · intro n h hwake
    exact ⟨.wake η, rfl, by simp [step, h.free, World.wakeStep, h.body, hwake]⟩
  · rintro n h he
    exact h.resting_step (by rw [he]; rfl) (x.next n)

/-- `ws.close()` returns, and the connection is no longer open. -/
theorem closing_leadsTo (hfair : FairToHeartbeat x η) (c : ℕ) :
    x.LeadsTo (Watches η (.closing c))
      (fun w => Retires η w ∨ (Sleeps η w ∧ w.isOpen c = false)) := by
  apply hfair.close.leadsTo
  · apply watches_keeps (Q := fun w => Retires η w ∨ (Sleeps η w ∧ w.isOpen c = false)) rfl
    · exact fun _ h => .inl h
    · exact fun h htask hstep => .inr (h.closing_step htask hstep)
  · intro n h
    exact ⟨.closeDone η, rfl, by simp [step, h.free, World.closeDoneStep, h.body]⟩
  · rintro n h he
    exact .inr (h.closing_step (by rw [he]; rfl) (x.next n))

/-- A ping ends, with a pong, an exception or its timeout. -/
theorem pinging_leadsTo (hfair : FairToHeartbeat x η) (k : ℕ) (conn : Option ℕ) :
    x.LeadsTo (Watches η (.pinging k conn)) (fun w => Pinged η k conn w ∨ Retires η w) := by
  have awaits {w : World} (h : Watches η (.pinging k conn) w) :
      (w.body η).awaits η = some (.heartbeat η, k) := by simp [h.body, Body.awaits]
  apply LeadsTo.exit
  · intro n h
    obtain ⟨m, hnm, hnot⟩ := awaits_leadsTo hfair.calls hfair.sends hfair.time _ k _ n (awaits h)
    exact ⟨m, hnm, fun h' => hnot (awaits h')⟩
  · intro n h
    have hsound := sound_of_execution x n
    by_cases hact : Acts (x.state n) (x.label n) η
    · exact (h.pinging_step hsound hact (x.next n)).imp_right .inl
    · exact (h.stays hsound hact (x.next n)).imp_right .inr

/-- From every suspension point the task gets to sleep. -/
theorem watches_leadsTo (hfair : FairToHeartbeat x η) (pc : HeartbeatAt) :
    x.LeadsTo (Watches η pc) (Sleeps η) := by
  have hrests : x.LeadsTo (fun w => ∃ wake, Watches η (.resting wake) w) (Sleeps η) :=
    .of_exists (resting_leadsTo hfair)
  have hcloses (c : ℕ) : x.LeadsTo (Watches η (.closing c)) (Sleeps η) := by
    refine (closing_leadsTo hfair c).trans (.of_imp ?_)
    rintro n (h | h)
    · exact .inr h
    · exact h.1
  cases pc with
  | ready => exact ready_leadsTo hfair
  | sleeping wake => exact .of_imp (fun _ h => .inl ⟨wake, h⟩)
  | resting wake => exact resting_leadsTo hfair wake
  | closing c => exact hcloses c
  | pinging k conn =>
    apply (pinging_leadsTo hfair k conn).trans
    rintro n (hpinged | h)
    · exact (LeadsTo.refl.or ((LeadsTo.of_exists hcloses).or hrests)) n hpinged.goes
    · exact ⟨n, le_rfl, .inr h⟩

/-- A sleep ends with a ping, unless the task retires. -/
theorem sleeping_takes (hfair : FairToHeartbeat x η) {wake : ℚ} {n : ℕ}
    (h : Watches η (.sleeping wake) (x.state n)) :
    ∃ m, n ≤ m ∧ ((∃ t, pingTime η (x.state m) (x.label m) = some t) ∨ Retires η (x.state m)) := by
  have hkeeps (n : ℕ) (h : Watches η (.sleeping wake) (x.state n))
      (hother : x.label n ∉ {e | e = .wake η}) :
      Watches η (.sleeping wake) (x.state (n + 1)) ∨ Retires η (x.state (n + 1)) := by
    have hsound := sound_of_execution x n
    by_cases hact : Acts (x.state n) (x.label n) η
    · have htask := task_of_acts hsound.linked (x.next n) hact h.lt (by rw [h.body]; rfl)
      rcases h.sleeping_step htask (x.next n) with ⟨t, hping⟩ | hretires
      · exact absurd (pingTime_eq_some hping).1 hother
      · exact .inr hretires
    · exact h.stays hsound hact (x.next n)
  have hpassed (n : ℕ) (hwake : wake ≤ (x.state n).now) : wake ≤ (x.state (n + 1)).now :=
    hwake.trans (step_moves (sound_of_execution x n).linked (x.next n)).now_le
  have henabled (n : ℕ) (h : Watches η (.sleeping wake) (x.state n))
      (hwake : wake ≤ (x.state n).now) : Enabled (step cfg) {e | e = .wake η} (x.state n) :=
    ⟨.wake η, rfl, by simp [step, h.free, World.wakeStep, h.body, hwake]⟩
  obtain ⟨m, hnm, ⟨hsleeps, he⟩ | hretires⟩ :=
    hfair.wake.takes_of_bound hfair.time wake hpassed hkeeps henabled h
  · rcases hsleeps.sleeping_step (by rw [he]; rfl) (x.next m) with hping | hretires
    · exact ⟨m, hnm, .inl hping⟩
    · exact ⟨m + 1, hnm.trans (Nat.le_succ m), .inr hretires⟩
  · exact ⟨m, hnm, .inr hretires⟩

/-- In every infinite execution in which time goes on, every `ws.send` on a live socket returns and
neither a call nor a step of the heartbeat task is neglected for ever, the heartbeat comes to its
next ping from wherever it stands, and every ping on a connection ends otherwise than by a timeout,
or that connection is no longer both held and open some time later, unless the task has ended or is
to be cancelled. -/
theorem heartbeat_never_stuck (hfair : FairToHeartbeat x η) {n : ℕ}
    (hb : (x.state n).body η = .heartbeat pc) :
    (∃ m, n ≤ m ∧ ((∃ t, pingTime η (x.state m) (x.label m) = some t) ∨ Retires η (x.state m))) ∧
    ∀ k c, pc = .pinging k (some c) →
      ∃ m, n ≤ m ∧ (InTime k (x.state m) ∨ ¬Current c (x.state m) ∨ Retires η (x.state m)) := by
  rcases watches_or_retires hb with h | hretires
  swap
  · exact ⟨⟨n, le_rfl, .inr hretires⟩, fun _ _ _ => ⟨n, le_rfl, .inr (.inr hretires)⟩⟩
  constructor
  · obtain ⟨m, hnm, ⟨wake, hsleeps⟩ | hretires⟩ := watches_leadsTo hfair pc n h
    swap
    · exact ⟨m, hnm, .inr hretires⟩
    obtain ⟨l, hml, hping | hretires⟩ := sleeping_takes hfair hsleeps
    · exact ⟨l, hnm.trans hml, .inl hping⟩
    · exact ⟨l, hnm.trans hml, .inr hretires⟩
  · rintro k c rfl
    obtain ⟨m, hnm, hpinged | hretires⟩ := pinging_leadsTo hfair k (some c) n h
    swap
    · exact ⟨m, hnm, .inr (.inr hretires)⟩
    rcases hpinged.detects with hretires | hintime | hcloses
    · exact ⟨m, hnm, .inr (.inr hretires)⟩
    · exact ⟨m, hnm, .inl hintime⟩
    · rcases hcloses c rfl with hgone | hclosing
      · exact ⟨m, hnm, .inr (.inl hgone)⟩
      · obtain ⟨l, hml, hretires | ⟨-, hclosed⟩⟩ := closing_leadsTo hfair c m hclosing
        · exact ⟨l, hnm.trans hml, .inr (.inr hretires)⟩
        · refine ⟨l, hnm.trans hml, .inr (.inl ?_)⟩
          rintro ⟨-, hopen⟩
          rw [hclosed] at hopen
          cases hopen

end

/-- A client all of whose tasks and calls have ended may idle. -/
theorem fairToHeartbeat_of_idle {x : Execution (step cfg) World.init} {n : ℕ}
    (hx : x.Continues n (w.idle cfg)) (hcalls : ∀ call ∈ w.rpc.calls, call.phase.isEnded = true)
    (hended : ∀ t ∈ w.tasks, t.body = .finished ∧ t.cancelled = false) :
    FairToHeartbeat x η := by
  have hbody (m : ℕ) : ((w.idle cfg).state m).body η = .finished :=
    World.body_of_ended (fun t ht => (hended t ht).1) η
  have hquiet : ∀ t ∈ w.tasks, t.cancelled = false := fun t ht => (hended t ht).2
  refine ⟨hx.diverges (diverges_idle cfg w), fairToCalls_of_idle hx hcalls hquiet,
    sendsReturn_of_idle hx hcalls hquiet, ?_, ?_, ?_⟩
  · apply hx.weaklyFair
    apply WeaklyFair.of_disabled
    rintro m e rfl
    simp [step, World.runStep, hbody]
  · apply hx.weaklyFair
    apply WeaklyFair.of_disabled
    rintro m e rfl
    simp [step, World.wakeStep, hbody]
  · apply hx.weaklyFair
    apply WeaklyFair.of_disabled
    rintro m e rfl
    simp [step, World.closeDoneStep, hbody]

/-- The client whose ping times out closes the connection and is stopped. -/
def silentEnd : List Event :=
  [.timeout 0, .closeDone 2, .socketEnd 1, .stop, .deliverCancel 1, .stopStep 3, .deliverCancel 2,
    .stopStep 3]

/-- The server answers no ping, and the heartbeat gets its connection closed. -/
theorem heartbeat_never_stuck_silent :
    ∃ (x : Execution (step (.sample .kraken (some 5))) World.init) (n m : ℕ),
      FairToHeartbeat x 2 ∧ (x.state n).body 2 = .heartbeat (.pinging 0 (some 0)) ∧
      Current 0 (x.state n) ∧ n ≤ m ∧
      (InTime 0 (x.state m) ∨ ¬Current 0 (x.state m) ∨ Retires 2 (x.state m)) := by
  obtain ⟨v, hfirst, hb, hconn, hopen⟩ :
      ∃ v, Run (step (.sample .kraken (some 5))) always World.init silentEvents v ∧
        v.body 2 = .heartbeat (.pinging 0 (some 0)) ∧ v.conn = some 0 ∧ v.isOpen 0 = true :=
    Run.exists_of_exec (by decide +kernel)
  obtain ⟨w, hall, hcalls, hended⟩ :
      ∃ w, Run (step (.sample .kraken (some 5))) always World.init (silentEvents ++ silentEnd) w ∧
        (∀ call ∈ w.rpc.calls, call.phase.isEnded = true) ∧
          ∀ t ∈ w.tasks, t.body = .finished ∧ t.cancelled = false :=
    Run.exists_of_exec (by decide +kernel)
  obtain ⟨v', hfirst', hrest⟩ := hall.of_append
  obtain rfl := hfirst.unique hfirst'
  obtain ⟨y, hy⟩ := Execution.exists_continues hrest (w.idle _)
  obtain ⟨x, hx⟩ := Execution.exists_continues hfirst y
  have hfair : FairToHeartbeat x 2 := fairToHeartbeat_of_idle (hx.trans hy) hcalls hended
  have hstate : x.state silentEvents.length = v := (hx.state 0).trans y.init
  have hpings : (x.state silentEvents.length).body 2 = .heartbeat (.pinging 0 (some 0)) := by
    rw [hstate, hb]
  have hcurrent : Current 0 (x.state silentEvents.length) := by
    rw [hstate]
    exact ⟨hconn, hopen⟩
  obtain ⟨m, hnm, hdetects⟩ := (heartbeat_never_stuck hfair hpings).2 0 0 rfl
  exact ⟨x, _, m, hfair, hpings, hcurrent, hnm, hdetects⟩

end ProxyClient.Websocket
