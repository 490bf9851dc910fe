import ProxyClient.Websocket.Phases

/-!
# Deadlines of calls

`asyncio.wait_for` starts its timer once `ws.send` has returned. A call therefore never ends with
`TimeoutError` before its timeout has passed since then, nor with a reply at hand.
-/

namespace ProxyClient.Websocket

open Transition

variable {cfg : Config} {w v : World} {e : Event} {k : ℕ} {call call' : Call} {deadline : ℚ}
  {es : List Event}

/-- In a step of a run the send of a call returned, its socket still taking frames, and the
timeout of its operation ran from there to the deadline. -/
def SentFor (cfg : Config) (es : List Event) (w : World) (k : ℕ) (call : Call) (deadline : ℚ) :
    Prop :=
  ∃ t u, Along (step cfg) always World.init es w t (.sent k) u ∧
    call.conn.map t.sock = some .live ∧ deadline = t.now + World.timeoutOf cfg call.op

/-- In a step of a run a call timed out, its deadline passed and its future unsettled. -/
def TimesOut (cfg : Config) (es : List Event) (w : World) (k : ℕ) (deadline : ℚ) : Prop :=
  ∃ t u, Along (step cfg) always World.init es w t (.timeout k) u ∧
    t.rpc.future k = some .pending ∧ deadline ≤ t.now

/-- What happened in a run happened in every longer run. -/
theorem SentFor.snoc (h : SentFor cfg es w k call deadline) (hstep : step cfg w e = some v) :
    SentFor cfg (es ++ [e]) v k call deadline := by
  obtain ⟨t, u, halong, hsent⟩ := h
  exact ⟨t, u, halong.snoc trivial hstep, hsent⟩

/-- A call stays the call whose frame was sent, whatever becomes of its phase. -/
theorem SentFor.of_same (h : SentFor cfg es w k call deadline) (hsame : Rpc.Same call call') :
    SentFor cfg es w k call' deadline := by
  obtain ⟨t, u, halong, hlive, hdeadline⟩ := h
  exact ⟨t, u, halong, hsame.conn ▸ hlive, hsame.op ▸ hdeadline⟩

/-- A timeout of a run is a timeout of every longer run. -/
theorem TimesOut.snoc (h : TimesOut cfg es w k deadline) (hstep : step cfg w e = some v) :
    TimesOut cfg (es ++ [e]) v k deadline := by
  obtain ⟨t, u, halong, htimes⟩ := h
  exact ⟨t, u, halong.snoc trivial hstep, htimes⟩

/-- The deadline of a call that waits is its timeout after its send returned. -/
theorem sentFor_of_waiting (hrun : Run (step cfg) always World.init es w)
    (hcall : w.rpc.calls[k]? = some call) (hphase : call.phase = .waiting deadline) :
    SentFor cfg es w k call deadline := by
  induction hrun with
  | nil => simp [World.init] at hcall
  | @snoc es t v e hrun hok hstep ih =>
    rcases waits_of_step hstep hcall hphase with hold | hreturns
    · exact (ih hold).snoc hstep
    · obtain rfl := hreturns.event
      have htimeout := timeout_of_run (hrun.snoc hok hstep) hcall
      exact ⟨t, v, .last hrun hok hstep, hreturns.live, htimeout ▸ hreturns.timer⟩

/-- A request is sent to which no reply comes, -/
def lonelyEvents : List Event :=
  startEvents ++ [.call (.request "get_positions" none 10 none ""), .sent 0]

/-- and its end, when the timer fires. -/
def lonelyEnd : List Event := [.tick 10, .timeout 0]

end ProxyClient.Websocket
