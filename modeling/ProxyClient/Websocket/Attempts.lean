import ProxyClient.Websocket.Lifecycle

/-!
# The numbers the reconnect policy is given

The policy is meant to be given the length of the current failure streak: 1 for the first
reconnect after a connection that was up for five seconds, and one more for every connection
that was not. `_decide_reconnect` gives it 0 where a streak begins anew, and it measures how long
the connection was up at the time of the decision and not at the end of the socket.
-/

namespace ProxyClient.Websocket

open Transition

variable {cfg : Config} {w w' : World} {e : Event} {es : List Event} {σ a : ℕ}

/-! ## Streaks -/

/-- The numbers of a streak that goes on from `last` and is reset by every uptime of five
seconds. -/
def streak (reset last : ℕ) : List ℚ → List ℕ
  | [] => []
  | d :: ds =>
    let next := if reconnectResetAfter ≤ d then reset else last + 1
    next :: streak reset next ds

/-- The number after which a streak goes on: its last one, or the one from which it starts. -/
def lastOr (last : ℕ) (numbers : List ℕ) : ℕ := numbers.getLast?.getD last

/-- The numbers that the policy is documented to be given when the connections that ended had
these uptimes. -/
def documentedAttempts : List ℚ → List ℕ
  | [] => []
  | _ :: ds => 1 :: streak 1 1 ds

/-- One more duration adds one more number, the last one plus one or the reset. -/
theorem streak_concat (reset last : ℕ) (ds : List ℚ) (d : ℚ) :
    streak reset last (ds ++ [d]) = streak reset last ds ++
      [if reconnectResetAfter ≤ d then reset else lastOr last (streak reset last ds) + 1] := by
  induction ds generalizing last with
  | nil => rfl
  | cons d' ds ih =>
    set next := if reconnectResetAfter ≤ d' then reset else last + 1 with hnext
    have hlast : lastOr last (next :: streak reset next ds) =
        lastOr next (streak reset next ds) := by
      unfold lastOr
      rw [List.getLast?_cons, Option.getD_some]
    simp only [List.cons_append, streak, ← hnext, ih, hlast]

/-- A streak that begins anew at 0 is one that begins anew at 1 only if it never does. -/
theorem streak_eq_iff {α : Type*} {last : ℕ} (hlast : 0 < last) (l : List α) (f g : α → ℚ) :
    streak 0 last (l.map f) = streak 1 last (l.map g) ↔
      ∀ x ∈ l, f x < reconnectResetAfter ∧ g x < reconnectResetAfter := by
  induction l generalizing last with
  | nil => simp [streak]
  | cons x l ih =>
    have hcons : (∀ y ∈ x :: l, f y < reconnectResetAfter ∧ g y < reconnectResetAfter) ↔
        (f x < reconnectResetAfter ∧ g x < reconnectResetAfter) ∧
          ∀ y ∈ l, f y < reconnectResetAfter ∧ g y < reconnectResetAfter := List.forall_mem_cons
    rw [hcons]
    simp only [List.map_cons, streak, List.cons.injEq]
    by_cases hf : reconnectResetAfter ≤ f x
    · have hnot : ¬f x < reconnectResetAfter := by linarith
      rw [if_pos hf]
      split <;> simp [hnot]
    · have hlt : f x < reconnectResetAfter := by linarith
      rw [if_neg hf]
      by_cases hg : reconnectResetAfter ≤ g x
      · have hnot : ¬g x < reconnectResetAfter := by linarith
        have hne : last ≠ 0 := by omega
        simp [hg, hnot, hne]
      · have hlt' : g x < reconnectResetAfter := by linarith
        rw [if_neg hg, ih (by omega)]
        simp [hlt, hlt']

/-- The policy is given the documented numbers only if no streak ever begins anew. -/
theorem streak_eq_documented_iff {α : Type*} (l : List α) (f g : α → ℚ) :
    streak 0 0 (l.map f) = documentedAttempts (l.map g) ↔
      (∀ x ∈ l, f x < reconnectResetAfter) ∧ ∀ x ∈ l.tail, g x < reconnectResetAfter := by
  cases l with
  | nil => simp [streak, documentedAttempts]
  | cons x l =>
    simp only [List.map_cons, streak, documentedAttempts, List.cons.injEq, List.forall_mem_cons,
      List.tail_cons]
    by_cases hf : reconnectResetAfter ≤ f x
    · have hnot : ¬f x < reconnectResetAfter := by linarith
      simp [hf, hnot]
    · have hlt : f x < reconnectResetAfter := by linarith
      rw [if_neg hf, streak_eq_iff (by omega)]
      simp [hlt, forall_and]

/-! ## Uptimes -/

/-- The time at which a step ends the socket of a connection. -/
def socketEnds (cfg : Config) (c : ℕ) (w : World) (e : Event) : Option ℚ :=
  match step cfg w e with
  | some u =>
    match w.sock c, u.sock c with
    | .closed _, _ => none
    | _, .closed _ => some w.now
    | _, _ => none
  | none => none

/-- How long a connection was up in a run that ends in `w`: from the acceptance of its handshake
to the end of its socket, or up to now if that has not ended. -/
def uptime (cfg : Config) (es : List Event) (w : World) (c : ℕ) : ℚ :=
  match w.conns[c]?.bind Connection.connectedAt with
  | none => 0
  | some t => (outputs (step cfg) (socketEnds cfg c) World.init es).head?.getD w.now - t

/-! ## The calls of a run -/

/-- The calls of the policy that a supervise task makes in a run. -/
def policyCalls (cfg : Config) (σ : ℕ) (es : List Event) : List PolicyCall :=
  outputs (step cfg) (policyCall cfg σ) World.init es

/-- How long the connection was up whose end led to a call of the policy. -/
def PolicyCall.uptime (cfg : Config) (es : List Event) (w : World) (call : PolicyCall) : ℚ :=
  (call.conn.map (Websocket.uptime cfg es w)).getD 0

/-- The numbers a supervise task has given to the policy, and its count. -/
structure Counts (cfg : Config) (σ : ℕ) (calls : List PolicyCall) (w : World) : Prop where
  numbers : calls.map PolicyCall.attempt = streak 0 0 (calls.map PolicyCall.elapsed)
  count : ∀ a pc, w.body σ = .supervise a pc → a = lastOr 0 (calls.map PolicyCall.attempt)
  fresh : w.tasks.length ≤ σ → calls = []

/-- A new supervise task has not run yet. -/
theorem body_of_created {pc : SuperviseAt} (hsound : Sound cfg w)
    (h : step cfg w e = some w') (hle : w.tasks.length ≤ σ) (hb : w'.body σ = .supervise a pc) :
    w'.body σ = .supervise 0 .ready := by
  have hfinished : w.body σ = .finished := by
    by_contra hne
    have hlt := World.lt_of_body_ne hne
    omega
  rcases (step_moves hsound.linked h).role σ with hdone | hsame | ⟨-, hcreates⟩
  · rw [hb] at hdone
    cases hdone
  · rw [hb, hfinished] at hsame
    cases hsame
  · have hrole : (w'.body σ).role = .supervise := by rw [hb]; rfl
    rw [hrole] at hcreates
    cases hcreates with
    | @supervise τ c stage hreturns hb₀ =>
      obtain ⟨conns, -, rfl⟩ := started_of_returns hb₀ hreturns h
      set w₁ : World := { w with conns := conns }
      rcases body_started cfg w₁ τ σ with hold | ⟨-, hnew⟩ | ⟨-, hnew⟩
      · have hlength : (w₁.finish τ).tasks.length = w.tasks.length := by simp [w₁]
        have hlt : σ < (w₁.finish τ).tasks.length :=
          World.lt_of_body_ne (by rw [← hold, hb]; simp)
        omega
      · exact hnew
      · rw [hb] at hnew
        cases hnew

/-- A new supervise task has made no attempt. -/
theorem attempt_of_created {pc : SuperviseAt} (hsound : Sound cfg w)
    (h : step cfg w e = some w') (hle : w.tasks.length ≤ σ) (hb : w'.body σ = .supervise a pc) :
    a = 0 :=
  (Body.supervise.inj (hb.symm.trans (body_of_created hsound h hle hb))).1

namespace Counts

variable {calls : List PolicyCall}

/-- A supervise task that does not exist yet has asked the policy nothing. -/
theorem init : Counts cfg σ [] World.init where
  numbers := rfl
  count a pc h := by simp [World.init, World.body] at h
  fresh _ := rfl

/-- A step in which the task calls no policy. -/
theorem quiet (h : Counts cfg σ calls w) (hlength : w.tasks.length ≤ w'.tasks.length)
    (hcount : ∀ a pc, w'.body σ = .supervise a pc →
      (∃ pc', w.body σ = .supervise a pc') ∨ (a = 0 ∧ w.tasks.length ≤ σ)) :
    Counts cfg σ calls w' where
  numbers := h.numbers
  count a pc hb := by
    rcases hcount a pc hb with ⟨pc', hb'⟩ | ⟨rfl, hle⟩
    · exact h.count a pc' hb'
    · rw [h.fresh hle]
      rfl
  fresh hle := h.fresh (hlength.trans hle)

/-- A step in which the task calls the policy. -/
theorem asks {call : PolicyCall} (h : Counts cfg σ calls w) {pc : SuperviseAt}
    (hb : w.body σ = .supervise a pc)
    (hattempt : call.attempt = if reconnectResetAfter ≤ call.elapsed then 0 else a + 1)
    (hlt : σ < w'.tasks.length)
    (hcount : ∀ a' pc', w'.body σ = .supervise a' pc' → a' = call.attempt) :
    Counts cfg σ (calls ++ [call]) w' where
  numbers := by
    have hlast := h.count a pc hb
    rw [List.map_append, List.map_append, List.map_singleton, List.map_singleton, streak_concat,
      ← h.numbers, hattempt, hlast]
  count a' pc' hb' := by
    rw [hcount a' pc' hb', List.map_append, List.map_singleton, lastOr, List.getLast?_concat,
      Option.getD_some]
  fresh hle := by omega

/-- Every step keeps the count of a supervise task. -/
theorem step (h : Counts cfg σ calls w) (hsound : Sound cfg w)
    (hstep : step cfg w e = some w') :
    Counts cfg σ (calls ++ (policyCall cfg σ w e).toList) w' := by
  have hmoves := step_moves hsound.linked hstep
  by_cases hsupervise : ∃ a pc, w.body σ = .supervise a pc
  · obtain ⟨a, pc, hb⟩ := hsupervise
    have hlt : σ < w.tasks.length := World.lt_of_body_ne (by simp [hb])
    by_cases hact : Acts w e σ
    · cases Turns.of_acts hsound hb hact hstep with
      | goes hnone hb' =>
        rw [hnone, Option.toList_none, List.append_nil]
        apply h.quiet hmoves.tasks_length
        intro a' pc' hb''
        obtain ⟨rfl, -⟩ := Body.supervise.inj (hb'.symm.trans hb'')
        exact .inl ⟨pc, hb⟩
      | ends hnone _ hb' =>
        rw [hnone, Option.toList_none, List.append_nil]
        exact h.quiet hmoves.tasks_length (fun _ _ hb'' => by simp [hb'] at hb'')
      | cancelled hnone _ hb' =>
        rw [hnone, Option.toList_none, List.append_nil]
        exact h.quiet hmoves.tasks_length (fun _ _ hb'' => by simp [hb'] at hb'')
      | @asks policy conns rpc lastError hpolicy hrun hcall heq =>
        rw [hcall, Option.toList_some]
        set w₁ : World := { w with conns := conns, rpc := rpc }
        have hlt₁ : σ < w₁.tasks.length := hlt
        apply h.asks hb rfl (hlt.trans_le hmoves.tasks_length)
        intro a' pc' hb''
        rw [heq] at hb''
        rcases pumpReturned_cases (a := a) hlt₁ hrun hpolicy lastError with
          ⟨-, -, hb'⟩ | ⟨-, hb'⟩ | ⟨delay, -, ⟨pc, hb'⟩, -⟩
        · simp [hb'] at hb''
        · simp [hb'] at hb''
        · rw [hb'] at hb''
          exact (Body.supervise.inj hb'').1.symm
    · rw [policyCall_of_not_acts hsound hact, Option.toList_none, List.append_nil]
      apply h.quiet hmoves.tasks_length
      intro a' pc' hb'
      rw [hmoves.body_of_not_acts hact (by simp [hb])] at hb'
      exact .inl ⟨pc', hb'⟩
  · have hnone : policyCall cfg σ w e = none := by
      unfold policyCall
      split
      · rename_i hb _
        exact absurd ⟨_, _, hb⟩ hsupervise
      · rfl
    rw [hnone, Option.toList_none, List.append_nil]
    apply h.quiet hmoves.tasks_length
    intro a pc hb
    by_cases hle : w.tasks.length ≤ σ
    · exact .inr ⟨attempt_of_created hsound hstep hle hb, hle⟩
    · have hrole : (w'.body σ).role = .supervise := by rw [hb]; rfl
      rcases hmoves.role σ with hdone | hsame | ⟨hle', -⟩
      · rw [hrole] at hdone
        cases hdone
      · rw [hrole] at hsame
        obtain ⟨a', pc', hb'⟩ := Body.role_eq_supervise.mp hsame.symm
        exact absurd ⟨a', pc', hb'⟩ hsupervise
      · exact absurd hle' hle

end Counts

/-- In every run, the numbers a supervise task gives to the policy are its streaks from 0. -/
theorem counts_of_run {ok : World → Event → Prop}
    (hrun : Transition.Run (step cfg) ok World.init es w) (σ : ℕ) :
    Counts cfg σ (policyCalls cfg σ es) w := by
  induction hrun with
  | nil => exact .init
  | snoc hprefix _ hstep ih =>
    rw [policyCalls, hprefix.outputs_snoc hstep]
    exact ih.step (sound_of_run hprefix) hstep

/-- In a run, a supervise task gives the policy the documented numbers if and only if the
connection counts as up for less than five seconds at every call, and every connection but the
first was up for less than five seconds. -/
theorem attempts_documented_iff (cfg : Config) (es : List Event) (w : World)
    (hrun : Transition.Run (step cfg) Transition.always World.init es w) (σ : ℕ) :
    (policyCalls cfg σ es).map PolicyCall.attempt =
        documentedAttempts ((policyCalls cfg σ es).map (PolicyCall.uptime cfg es w)) ↔
      (∀ call ∈ policyCalls cfg σ es, call.elapsed < 5) ∧
        ∀ call ∈ (policyCalls cfg σ es).tail, call.uptime cfg es w < 5 := by
  rw [(counts_of_run hrun σ).numbers]
  exact streak_eq_documented_iff _ _ _

/-- A connection ends after four seconds, the first reconnect fails, and the connection of the
second is up for two seconds. -/
def shortLivedEvents : List Event :=
  startEvents ++ [.tick 4, .sockClosed 0 true, .socketEnd 1, .tick 1, .wake 1, .connectFailed 1,
    .tick 1, .wake 1] ++ openEvents 1 2 ++ [.tick 2, .sockClosed 2 true, .socketEnd 1]

/-- The condition is met by a run with two drops and a failed reconnect, in which no connection was
up for five seconds. -/
theorem attempts_documented_iff_dropped :
    ∃ w, Transition.Run (step (.sample .kraken none)) Transition.always World.init
        shortLivedEvents w ∧
      policyCalls (.sample .kraken none) 1 shortLivedEvents =
        [⟨1, 4, some 0⟩, ⟨2, 0, some 1⟩, ⟨3, 2, some 2⟩] ∧
      (policyCalls (.sample .kraken none) 1 shortLivedEvents).map PolicyCall.attempt =
        documentedAttempts ((policyCalls (.sample .kraken none) 1 shortLivedEvents).map
          (PolicyCall.uptime (.sample .kraken none) shortLivedEvents w)) := by
  obtain ⟨w, hrun, hcalls, helapsed, huptime⟩ :
      ∃ w, Transition.Run (step (.sample .kraken none)) Transition.always World.init
          shortLivedEvents w ∧
        policyCalls (.sample .kraken none) 1 shortLivedEvents =
          [⟨1, 4, some 0⟩, ⟨2, 0, some 1⟩, ⟨3, 2, some 2⟩] ∧
        (∀ call ∈ policyCalls (.sample .kraken none) 1 shortLivedEvents, call.elapsed < 5) ∧
        ∀ call ∈ (policyCalls (.sample .kraken none) 1 shortLivedEvents).tail,
          call.uptime (.sample .kraken none) shortLivedEvents w < 5 :=
    Transition.Run.exists_of_exec (by decide +kernel)
  exact ⟨w, hrun, hcalls, (attempts_documented_iff _ _ _ hrun 1).mpr ⟨helapsed, huptime⟩⟩

/-- A client connects, its connection is up for a minute, and the server closes it. -/
def healthyDropEvents : List Event := startEvents ++ [.tick 60, .sockClosed 0 true, .socketEnd 1]

/-- The first reconnect after a connection that was up for a minute is attempt 0. -/
theorem attempt_zero :
    ∃ w, Transition.Run (step (.sample .kraken none)) Transition.always World.init
        healthyDropEvents w ∧
      (policyCalls (.sample .kraken none) 1 healthyDropEvents).map PolicyCall.attempt = [0] ∧
      documentedAttempts ((policyCalls (.sample .kraken none) 1 healthyDropEvents).map
        (PolicyCall.uptime (.sample .kraken none) healthyDropEvents w)) = [1] :=
  Transition.Run.exists_of_exec (by decide +kernel)

end ProxyClient.Websocket
