import ProxyClient.Run
import ProxyClient.Websocket.Updates
import Mathlib.Tactic.Linarith
import Mathlib.Tactic.NormNum

/-!
# The default reconnect policy

`_backoff.py`: half a second, doubled with every attempt and capped at thirty seconds. The cap
is applied to the float that the doubling gives, and `2.0 ** k` raises `OverflowError` from
`k = 1024` on, so that the policy raises from attempt 1025 on.
-/

namespace ProxyClient.Websocket

/-- `_INITIAL`, the delay before the first attempt, in seconds. -/
def initialDelay : ℚ := 1 / 2

/-- `_FACTOR`, by which the delay grows from one attempt to the next. -/
def factor : ℚ := 2

/-- `_MAX_DELAY`, the cap on the delay, in seconds. -/
def maxDelay : ℚ := 30

/-- `_FACTOR ** k`: the powers of two that are floats are exact, and the others overflow. -/
def factorPow (k : ℕ) : Except PyError ℚ :=
  if k < 1024 then .ok (factor ^ k) else .error .overflowError

/-- `default_backoff`. Subtraction stops at zero, as `max(attempt - 1, 0)` does. -/
def defaultBackoff (attempt : ℕ) : Except PyError ℚ := do
  let power ← factorPow (attempt - 1)
  return min (initialDelay * power) maxDelay

/-- `default_backoff` as the supervisor meets it: a delay, or an exception. -/
def defaultPolicy (attempt : ℕ) : Policy :=
  match defaultBackoff attempt with
  | .ok delay => .wait delay
  | .error _ => .raises

/-- The delay that the policy is documented to give. -/
def documentedDelay (attempt : ℕ) : ℚ := min (1 / 2 * 2 ^ (attempt - 1)) 30

/-- The documented delays stay within their bounds. -/
theorem documentedDelay_mem (attempt : ℕ) :
    1 / 2 ≤ documentedDelay attempt ∧ documentedDelay attempt ≤ 30 := by
  have hpow : (1 : ℚ) ≤ 2 ^ (attempt - 1) := one_le_pow₀ (by norm_num)
  constructor
  · refine le_min ?_ (by norm_num)
    linarith
  · exact min_le_right _ _

/-- The documented delays do not decrease, and reach the cap after a few attempts. -/
theorem documentedDelay_mono {m n : ℕ} (h : m ≤ n) : documentedDelay m ≤ documentedDelay n := by
  have hpow : (2 : ℚ) ^ (m - 1) ≤ 2 ^ (n - 1) := pow_le_pow_right₀ (by norm_num) (by omega)
  refine min_le_min ?_ le_rfl
  linarith

/-- Up to attempt 1024 the policy gives the documented delay. -/
theorem defaultBackoff_of_le {attempt : ℕ} (h : attempt ≤ 1024) :
    defaultBackoff attempt = .ok (documentedDelay attempt) := by
  have hfloat : attempt - 1 < 1024 := by omega
  simp only [defaultBackoff, factorPow, if_pos hfloat]
  rfl

/-- From attempt 1025 on it raises, since the power of two is no longer a float. -/
theorem defaultBackoff_of_gt {attempt : ℕ} (h : 1024 < attempt) :
    defaultBackoff attempt = .error .overflowError := by
  have hfloat : ¬attempt - 1 < 1024 := by omega
  simp only [defaultBackoff, factorPow, if_neg hfloat]
  rfl

/-! ## The supervisor under this policy -/

/-- The number that `_decide_reconnect` hands to the policy. -/
def World.nextAttempt (w : World) (attempt : ℕ) : ℕ :=
  if reconnectResetAfter ≤ w.connectedDuration then 0 else attempt + 1

/-- What the supervisor decides under the default policy. -/
theorem decideReconnect_default {cfg : Config} (hcfg : cfg.reconnect = some defaultPolicy)
    (w : World) (attempt : ℕ) :
    w.decideReconnect cfg attempt =
      if w.nextAttempt attempt ≤ 1024 then
        .reconnect (w.nextAttempt attempt) (documentedDelay (w.nextAttempt attempt))
      else .raises := by
  have hnext : (if reconnectResetAfter ≤ w.connectedDuration then 0 else attempt + 1) =
    w.nextAttempt attempt := rfl
  unfold World.decideReconnect
  rw [hcfg]
  simp only [hnext]
  split_ifs with h
  · rw [defaultPolicy, defaultBackoff_of_le h]
  · rw [defaultPolicy, defaultBackoff_of_gt (by omega)]

/-- After a pump of a running client has returned, the supervise task backs off or dies. -/
theorem pumpReturned_default {cfg : Config} (hcfg : cfg.reconnect = some defaultPolicy)
    {w : World} (hrun : w.running = true) (σ attempt : ℕ) (lastError : Option Exc) :
    w.pumpReturned cfg σ attempt lastError =
      if w.nextAttempt attempt ≤ 1024 then
        World.setBody { w with rpc := w.rpc.failAll (World.asConnectionError lastError) } σ
          (.supervise (w.nextAttempt attempt)
            (.backingOff (w.now + documentedDelay (w.nextAttempt attempt))))
      else
        World.finish { w with rpc := w.rpc.failAll (World.asConnectionError lastError) } σ := by
  have hdelay := (documentedDelay_mem (w.nextAttempt attempt)).1
  have hpos : 0 < documentedDelay (w.nextAttempt attempt) := by linarith
  set w₁ : World := { w with rpc := w.rpc.failAll (World.asConnectionError lastError) } with hw₁
  have hnext : w₁.nextAttempt attempt = w.nextAttempt attempt := rfl
  unfold World.pumpReturned
  rw [if_pos hrun]
  simp only
  rw [← hw₁, decideReconnect_default hcfg, hnext]
  split_ifs with h
  · simp only [if_pos hpos]
  · rfl

/-- The default policy gives the documented delay for an attempt, within its bounds and no
smaller than before, and a supervise task that calls it with that attempt lives on, if and only
if the attempt is at most 1024. -/
theorem defaultBackoff_iff (attempt : ℕ) :
    ((∃ delay, defaultBackoff attempt = .ok delay ∧
        delay = min (1 / 2 * 2 ^ (attempt - 1)) 30 ∧ 1 / 2 ≤ delay ∧ delay ≤ 30 ∧
        ∀ m ≤ attempt, ∀ earlier, defaultBackoff m = .ok earlier → earlier ≤ delay) ∧
      ∀ (cfg : Config) (w : World) (σ a : ℕ) (lastError : Option Exc),
        cfg.reconnect = some defaultPolicy → w.running = true → σ < w.tasks.length →
        w.nextAttempt a = attempt → (w.pumpReturned cfg σ a lastError).alive σ = true) ↔
      attempt ≤ 1024 := by
  constructor
  · rintro ⟨⟨delay, hdelay, -⟩, -⟩
    by_contra hgt
    rw [defaultBackoff_of_gt (by omega)] at hdelay
    cases hdelay
  · intro hle
    refine ⟨⟨documentedDelay attempt, defaultBackoff_of_le hle, rfl,
      (documentedDelay_mem attempt).1, (documentedDelay_mem attempt).2, ?_⟩, ?_⟩
    · intro m hm earlier hearlier
      rw [defaultBackoff_of_le (by omega)] at hearlier
      obtain rfl := Except.ok.inj hearlier
      exact documentedDelay_mono hm
    · intro cfg w σ a lastError hcfg hrun hσ hnext
      rw [pumpReturned_default hcfg hrun, if_pos (by omega)]
      simp [World.alive, World.body, hσ]

/-! ## An outage of 1025 attempts -/

/-- The reconnect with a given attempt number is about to connect. -/
structure Outage (σ attempt : ℕ) (w : World) : Prop where
  running : w.running = true
  task : w.superviseTask = some σ
  free : w.isCancelled σ = false
  opening : ∃ c, w.body σ = .supervise attempt (.opening c .connecting) ∧ w.conn = some c ∧
    ∃ conn ∈ w.conns[c]?, conn.attached = false ∧ conn.connectedAt = none

/-- The supervise task whose connect fails goes on with what `pumpReturned` makes of it. -/
theorem Outage.connectFailed {cfg : Config} {σ attempt : ℕ} {w : World}
    (h : Outage σ attempt w) : step cfg w (.connectFailed σ) =
      some (w.pumpReturned cfg σ attempt (some (.py .runtimeError))) := by
  obtain ⟨c, hb, hconn, conn, hfresh, hattached, -⟩ := h.opening
  have hopening : w.opening? σ = some (c, .connecting) := by simp [World.opening?, hb]
  have hdetached : (w.conns[c]?.map Connection.attached).getD false = false := by
    rw [hfresh]
    exact hattached
  simp [step, h.free, World.openStep, hopening, World.openFailed, hb, World.beginPump, h.running,
    hconn, hdetached]

/-- A connection that was never accepted counts as up for no time. -/
theorem Outage.nextAttempt {σ attempt : ℕ} {w : World} (h : Outage σ attempt w) :
    w.nextAttempt attempt = attempt + 1 := by
  obtain ⟨c, -, hconn, conn, hfresh, -, hnever⟩ := h.opening
  have hduration : w.connectedDuration = 0 := by
    rw [World.connectedDuration, hconn, Option.bind_some, hfresh, Option.bind_some, hnever]
  simp [World.nextAttempt, hduration, reconnectResetAfter]

/-- An outage goes on for one more attempt. -/
theorem Outage.next {cfg : Config} (hcfg : cfg.reconnect = some defaultPolicy) {σ attempt : ℕ}
    {w : World} (h : Outage σ attempt w) (hlt : attempt < 1024) :
    ∃ es w', Transition.Run (step cfg) Transition.always w es w' ∧ Outage σ (attempt + 1) w' := by
  obtain ⟨c, hb, -⟩ := h.opening
  have hσ : σ < w.tasks.length := World.lt_of_body_ne (by rw [hb]; simp)
  have hnext := h.nextAttempt
  set delay := documentedDelay (attempt + 1) with hdelay
  have hpos : 0 ≤ delay := by
    have hmem := (documentedDelay_mem (attempt + 1)).1
    linarith
  set w₁ : World := World.setBody
    { w with rpc := w.rpc.failAll (World.asConnectionError (some (.py .runtimeError))) } σ
    (.supervise (attempt + 1) (.backingOff (w.now + delay))) with hw₁
  have h₁ : step cfg w (.connectFailed σ) = some w₁ := by
    rw [h.connectFailed, pumpReturned_default hcfg h.running, hnext, if_pos (by omega)]
  set w₂ : World := { w₁ with now := w₁.now + delay } with hw₂
  have h₂ : step cfg w₁ (.tick delay) = some w₂ := by simp [step, hpos, hw₂]
  have hb₂ : w₂.body σ = .supervise (attempt + 1) (.backingOff (w.now + delay)) := by
    simp [hw₂, hw₁, World.body, hσ]
  have hfree₂ : w₂.isCancelled σ = false := by simp [hw₂, hw₁, World.isCancelled, hσ]
  have hrunning₂ : w₂.running = true := h.running
  have hwake : w.now + delay ≤ w₂.now := le_rfl
  have h₃ : step cfg w₂ (.wake σ) = some (w₂.beginReconnect σ (attempt + 1)) := by
    simp [step, hfree₂, World.wakeStep, hb₂, hrunning₂, hwake]
  refine ⟨_, _, .snoc (.snoc (.snoc .nil trivial h₁) trivial h₂) trivial h₃, ?_⟩
  have hσ₂ : σ < w₂.tasks.length := by simpa [hw₂, hw₁] using hσ
  exact
    { running := hrunning₂
      task := h.task
      free := by simp [World.beginReconnect, World.isCancelled, hσ₂]
      opening := ⟨w₂.conns.length, by simp [World.beginReconnect, World.body, hσ₂], rfl,
        {}, by simp [World.beginReconnect], rfl, rfl⟩ }

/-- An outage can last for any number of attempts up to 1024. -/
theorem Outage.lasts {cfg : Config} (hcfg : cfg.reconnect = some defaultPolicy) {σ attempt : ℕ}
    {w : World} (h : Outage σ attempt w) {n : ℕ} (hle : attempt ≤ n) (hn : n ≤ 1024) :
    ∃ es w', Transition.Run (step cfg) Transition.always w es w' ∧ Outage σ n w' := by
  induction n, hle using Nat.le_induction with
  | base => exact ⟨[], w, .nil, h⟩
  | succ n _ ih =>
    obtain ⟨es, w₁, hrun, hout⟩ := ih (by omega)
    obtain ⟨es', w₂, hrun', hout'⟩ := hout.next hcfg (by omega)
    exact ⟨es ++ es', w₂, hrun.append hrun', hout'⟩

/-- The next failure after attempt 1024 kills the supervise task of a client that runs on. -/
theorem Outage.ends {cfg : Config} (hcfg : cfg.reconnect = some defaultPolicy) {σ : ℕ} {w : World}
    (h : Outage σ 1024 w) :
    ∃ w', step cfg w (.connectFailed σ) = some w' ∧ w'.running = true ∧
      w'.superviseTask = some σ ∧ w'.alive σ = false := by
  obtain ⟨c, hb, -⟩ := h.opening
  have hσ : σ < w.tasks.length := World.lt_of_body_ne (by rw [hb]; simp)
  have hnext := h.nextAttempt
  refine ⟨_, h.connectFailed, ?_⟩
  rw [pumpReturned_default hcfg h.running, hnext, if_neg (by omega)]
  exact ⟨h.running, h.task, by simp [World.alive, World.body, hσ]⟩

/-- Under the default policy a client outlives its supervise task in an outage that is long
enough: the policy raises for attempt 1025. -/
theorem default_policy_raises :
    defaultBackoff 1025 = .error .overflowError ∧
      ∃ es w, Transition.Run
          (step { Config.sample .kraken none with reconnect := some defaultPolicy })
          Transition.always World.init es w ∧
        w.running = true ∧ w.superviseTask = some 1 ∧ w.alive 1 = false := by
  refine ⟨defaultBackoff_of_gt (by omega), ?_⟩
  have hfirst : ∃ w, Transition.Run
      (step { Config.sample .kraken none with reconnect := some defaultPolicy })
      Transition.always World.init
      (startEvents ++ [.sockClosed 0 true, .socketEnd 1, .tick (1 / 2), .wake 1]) w ∧
      w.running = true ∧ w.superviseTask = some 1 ∧ w.isCancelled 1 = false ∧
      w.body 1 = .supervise 1 (.opening 1 .connecting) ∧ w.conn = some 1 ∧
      ∃ conn ∈ w.conns[1]?, conn.attached = false ∧ conn.connectedAt = none :=
    Transition.Run.exists_of_exec (by decide +kernel)
  obtain ⟨w, hrun, hrunning, htask, hfree, hb, hconn, hfresh⟩ := hfirst
  have hcfg : Config.reconnect { Config.sample .kraken none with
      reconnect := some defaultPolicy } = some defaultPolicy := rfl
  have hout : Outage 1 1 w := ⟨hrunning, htask, hfree, 1, hb, hconn, hfresh⟩
  obtain ⟨es, w₁, hrun₁, hout₁⟩ := hout.lasts (n := 1024) hcfg (by omega) le_rfl
  obtain ⟨w₂, hstep, hend⟩ := hout₁.ends hcfg
  exact ⟨_, w₂, .snoc (hrun.append hrun₁) trivial hstep, hend⟩

end ProxyClient.Websocket
