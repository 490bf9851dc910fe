import ProxyClient.Websocket.Frames
import Mathlib.Algebra.Ring.Rat

/-!
# Requests get the replies to their own frames

Against a server whose replies echo the correlation fields of the frames they answer, and
whose pushes carry none, every request is settled by the reply to its own frame or by no
frame at all. Each inbound frame settles at most one waiter, and the map of pending
requests holds no leftovers.
-/

namespace ProxyClient.Websocket

variable {cfg : Config} {w₀ w w' : World} {e : Event} {d : Dialect} {r r' : Rpc}

/-! ## The server -/

/-- The fields that correlate a reply with a request. -/
def Dialect.correlationFields : Dialect → List String
  | kraken => ["id", "req_id"]
  | okx => ["id"]

/-- A reply echoes the correlation fields of a frame verbatim. -/
def Dialect.Echoes (d : Dialect) (frame reply : Fields) : Prop :=
  ∀ name ∈ d.correlationFields, Fields.get reply name = Fields.get frame name

/-- A push of the server carries none of the fields by which the dialect correlates a reply. -/
def Dialect.Uncorrelated (d : Dialect) (msg : Fields) : Prop :=
  ∀ name ∈ d.correlationFields, Fields.get msg name = .null

/-- A frame that answers a call echoes its correlation fields, and any other carries none. -/
def Rpc.Truthful (d : Dialect) (r : Rpc) (f : Inbound) : Prop :=
  (∀ k ∈ f.answers, ∃ call ∈ r.calls[k]?, d.Echoes call.frame f.fields) ∧
    (f.answers = none → d.Uncorrelated f.fields)

/-- A server that correlates its replies: each frame that answers a call carries what identifies the
request of that call. -/
def EchoServer (cfg : Config) (w : World) (e : Event) : Prop :=
  ∀ f ∈ e.arrival, w.rpc.Truthful cfg.dialect f

instance (d : Dialect) (frame reply : Fields) : Decidable (d.Echoes frame reply) :=
  inferInstanceAs (Decidable (∀ name ∈ d.correlationFields, _ = _))

instance (d : Dialect) (msg : Fields) : Decidable (d.Uncorrelated msg) :=
  inferInstanceAs (Decidable (∀ name ∈ d.correlationFields, _ = _))

instance (d : Dialect) (r : Rpc) (f : Inbound) : Decidable (r.Truthful d f) :=
  inferInstanceAs (Decidable (_ ∧ _))

instance (cfg : Config) (w : World) (e : Event) : Decidable (EchoServer cfg w e) :=
  inferInstanceAs (Decidable (∀ f ∈ e.arrival, _))

/-! ## Keys and echoes -/

/-- An echo has the correlation key of the frame it answers. -/
theorem Dialect.Echoes.responseKey {frame reply : Fields} (h : d.Echoes frame reply) :
    d.responseKey reply = d.responseKey frame := by
  cases d with
  | kraken =>
    have hid := h "id" (by decide)
    have hreq := h "req_id" (by decide)
    simp only [Dialect.responseKey, hid, hreq]
  | okx => exact h "id" (by decide)

/-- A push has no correlation key, so `resolve` leaves it to the handlers. -/
theorem Dialect.Uncorrelated.responseKey {msg : Fields} (h : d.Uncorrelated msg) :
    d.responseKey msg = .null := by
  cases d with
  | kraken =>
    have hid := h "id" (by decide)
    have hreq := h "req_id" (by decide)
    simp only [Dialect.responseKey, hid, hreq, ne_eq, not_true_eq_false, if_false]
  | okx => exact h "id" (by decide)

/-- The correlation key of a request's frame is the key it is registered under. -/
theorem Dialect.key?_responseKey {method : String} {params : Option Params} {n : ℕ}
    {idempotencyKey : Option String} {isOrder : Bool} {frame : Fields} {key : Key}
    (h : d.requestFrame method params n idempotencyKey isOrder = .ok (frame, key)) :
    (d.responseKey frame).key? = some key := by
  cases d with
  | kraken =>
    simp only [Dialect.requestFrame, krakenRequestFrame, Except.ok.injEq, Prod.mk.injEq] at h
    obtain ⟨rfl, rfl⟩ := h
    by_cases hparams : (params.getD Params.empty).fields.isEmpty = true <;>
      by_cases hkey : idempotencyKey.getD "" = "" <;> cases isOrder <;>
        simp [Dialect.responseKey, Fields.get, List.lookup_cons, Json.key?, hparams, hkey]
  | okx =>
    simp only [Dialect.requestFrame, okxRequestFrame] at h
    split at h
    · cases h
    · split at h
      · cases h
      · simp only [Except.ok.injEq, Prod.mk.injEq] at h
        obtain ⟨rfl, rfl⟩ := h
        simp [Dialect.responseKey, Fields.get, List.lookup_cons, Json.key?]

/-- The frame of a request carries its key, and a ping carries none. -/
theorem key?_of_framed {op : Operation} {n : ℕ} {frame : Fields} {key : Key}
    (h : op.requestFrame d n = .ok (frame, key)) :
    (op.isRequest = true ∧ (d.responseKey frame).key? = some key) ∨
      (op = .ping ∧ d.responseKey frame = .null) := by
  cases op with
  | request => exact .inl ⟨rfl, Dialect.key?_responseKey h⟩
  | subscribe => exact .inl ⟨rfl, Dialect.key?_responseKey h⟩
  | unsubscribe => exact .inl ⟨rfl, Dialect.key?_responseKey h⟩
  | ping =>
    simp only [Operation.requestFrame, Except.ok.injEq, Prod.mk.injEq] at h
    obtain ⟨rfl, -⟩ := h
    refine .inr ⟨rfl, ?_⟩
    cases d <;> simp [Dialect.responseKey, Fields.get, List.lookup_cons]

/-! ## Truthful frames -/

/-- Calls only ever become more, so that a truthful frame stays one. -/
theorem Rpc.Truthful.mono {f : Inbound} (h : r.Truthful d f) (hextends : r.Extends r') :
    r'.Truthful d f := by
  refine ⟨?_, h.2⟩
  intro k hk
  obtain ⟨call, hcall, hechoes⟩ := h.1 k hk
  obtain ⟨call', hcall', hsame⟩ := hextends k call hcall
  exact ⟨call', hcall', hsame.frame ▸ hechoes⟩

/-! ## The correlation theorem -/

/-- A truthful frame in the slot of a request answers that request. -/
theorem Rpc.Inv.answers_of_slot (hinv : r.Inv d) {f : Inbound} (htruthful : r.Truthful d f)
    {k : ℕ} {call : Call} (hcall : r.calls[k]? = some call) (hreq : call.op.isRequest = true)
    (hslot : d.slotOf f = some call.key) : f.answers = some k := by
  obtain ⟨n, -, hframed⟩ := hinv.framed hcall
  have hpong : call.key ≠ pongKey := by
    rcases Rpc.key_of_framed hframed with ⟨-, hkey⟩ | ⟨hping, -⟩
    · rw [hkey]
      exact Rpc.keyOf_ne_pongKey d n
    · rw [hping] at hreq
      cases hreq
  unfold Dialect.slotOf at hslot
  split at hslot
  · exact absurd (Option.some.inj hslot).symm hpong
  · split at hslot
    · cases hslot
    · rename_i hcorrelated
      cases hanswers : f.answers with
      | none => exact absurd (htruthful.2 hanswers).responseKey hcorrelated
      | some j =>
        obtain ⟨call', hcall', hechoes⟩ := htruthful.1 j hanswers
        rw [hechoes.responseKey] at hslot hcorrelated
        obtain ⟨m, -, hframed'⟩ := hinv.framed hcall'
        rcases key?_of_framed hframed' with ⟨-, hkey⟩ | ⟨-, hnull⟩
        · have heq : call.key = call'.key := by
            rw [hkey] at hslot
            exact (Option.some.inj hslot).symm
          rw [hinv.unique hcall hcall' hreq heq]
        · exact absurd hnull hcorrelated

/-- Against a server that echoes, a request is settled by the reply to its own frame. -/
theorem answers_of_result {ok : World → Event → Prop} {es : List Event}
    (hrun : Transition.Run (step cfg) ok World.init es w)
    (hserver : ∀ w e, ok w e → EchoServer cfg w e) {k : ℕ} {call : Call} {f : Inbound}
    (hcall : w.rpc.calls[k]? = some call) (hreq : call.op.isRequest = true)
    (hf : w.rpc.future k = some (.result f)) : f.answers = some k := by
  have hsound : Sound cfg w := sound_of_run hrun
  have hframes : Frames (fun r f => r.Truthful cfg.dialect f) w :=
    frames_of_run hrun (fun hextends h => h.mono hextends) hserver
  obtain ⟨call', hcall', hslot⟩ := hsound.rpc.settled hf
  obtain rfl := Option.some.inj (hcall'.symm.trans hcall)
  exact hsound.rpc.answers_of_slot (hframes.future hf) hcall hreq hslot

/-- Requests and replies are correlated exactly, in a state and in every step from it. -/
structure Correlated (cfg : Config) (w : World) : Prop where
  /-- A request is settled by the reply to its own frame only. -/
  own_reply : ∀ {k : ℕ} {call : Call} {f : Inbound}, w.rpc.calls[k]? = some call →
    call.op.isRequest = true → w.rpc.future k = some (.result f) → f.answers = some k
  /-- A request returns the reply to its own frame only. -/
  returned : ∀ {k : ℕ} {call : Call} {f : Inbound}, w.rpc.calls[k]? = some call →
    call.op.isRequest = true → call.phase = .ended (.reply f) → f.answers = some k
  /-- A step settles at most one waiter. -/
  single : ∀ {e : Event} {w' : World} {i j : ℕ} {f g : Inbound}, step cfg w e = some w' →
    w.rpc.future i = some .pending → w'.rpc.future i = some (.result f) →
    w.rpc.future j = some .pending → w'.rpc.future j = some (.result g) → i = j
  /-- A settled waiter is never settled again. -/
  final : ∀ {e : Event} {w' : World} {k : ℕ} {fut : Future Inbound Exc},
    step cfg w e = some w' → w.rpc.future k = some fut → fut.done = true →
    w'.rpc.future k = some fut
  /-- No two requests share a key. -/
  distinct : ∀ {i j : ℕ} {ci cj : Call}, w.rpc.calls[i]? = some ci →
    w.rpc.calls[j]? = some cj → ci.op.isRequest = true → cj.op.isRequest = true →
    ci.key = cj.key → i = j
  /-- A request in flight whose future is pending is registered. -/
  registered : ∀ {k : ℕ} {call : Call}, w.rpc.calls[k]? = some call →
    call.op.isRequest = true → call.phase.isEnded = false →
    w.rpc.future k = some .pending → w.rpc.pending.futures.lookup call.key = some k
  /-- The end of a request removes no registration but its own. -/
  discard : ∀ {k i : ℕ} {call : Call} {key : Key} (outcome : Outcome),
    w.rpc.calls[k]? = some call → call.op.isRequest = true →
    w.rpc.pending.futures.lookup key = some i → i ≠ k →
    (w.rpc.finish k outcome).pending.futures.lookup key = some i
  /-- A request that has ended has left the map. -/
  released : ∀ {k : ℕ} {call : Call}, w.rpc.calls[k]? = some call →
    call.op.isRequest = true → call.phase.isEnded = true →
    w.rpc.pending.futures.lookup call.key = none

/-- In every run against a server that echoes correlation fields, requests and replies are
correlated exactly. -/
theorem requests_correlate {es : List Event}
    (hrun : Transition.Run (step cfg) (EchoServer cfg) World.init es w) : Correlated cfg w := by
  have hsound : Sound cfg w := sound_of_run hrun
  have hinv := hsound.rpc
  constructor
  case own_reply =>
    intro k call f hcall hreq hf
    exact answers_of_result hrun (fun _ _ h => h) hcall hreq hf
  case returned =>
    intro k call f hcall hreq hended
    exact answers_of_result hrun (fun _ _ h => h) hcall hreq (hinv.replied hcall hended)
  case single =>
    intro e w' i j f g hstep hi hi' hj hj'
    have hmoves := step_moves hsound.linked hstep
    rcases hmoves.future_result hi' with h | hsettles
    · rw [hi] at h
      cases h
    · rcases hmoves.future_result hj' with h | hsettles'
      · rw [hj] at h
        cases h
      · exact (hsettles.unique hsettles').1
  case final =>
    intro e w' k fut hstep hf hdone
    exact (step_moves hsound.linked hstep).future_done hf hdone
  case distinct => exact hinv.distinct
  case registered => exact hinv.registered
  case discard =>
    intro k i call key outcome hcall _ hlookup hne
    exact hinv.lookup_finish_of_ne hcall hlookup hne
  case released =>
    intro k call hcall hreq hended
    by_contra hsome
    obtain ⟨i, hi⟩ := Option.ne_none_iff_exists'.mp hsome
    obtain ⟨call', hcall', hkey, hended'⟩ := hinv.slot hi
    have hki := hinv.unique hcall hcall' hreq hkey.symm
    subst hki
    obtain rfl := Option.some.inj (hcall'.symm.trans hcall)
    rw [hended] at hended'
    cases hended'

/-- Two subscriptions whose acks arrive in the opposite order, one of them twice. -/
def crossedReplies : List Event :=
  startEvents ++
    [.call (.subscribe "ticker" none true), .sent 0, .call (.subscribe "book" none true), .sent 1,
      .frame 0 (subscribeAck 2 1), .frame 0 (subscribeAck 1 0), .frame 0 (subscribeAck 2 1),
      .recv 1, .callbackEnd 1 .returned, .resume 1, .recv 1, .callbackEnd 1 .returned, .resume 0,
      .recv 1, .callbackEnd 1 .returned]

/-- The server echoes faithfully in a run with crossed and repeated acks, and both subscriptions are
live after it. -/
theorem requests_correlate_crossed :
    ∃ w, (Correlated (.sample .kraken none) w) ∧
      w.subscriptions.map Prod.fst = ["book", "ticker"] := by
  obtain ⟨w, hrun, hsubs⟩ :
      ∃ w, Transition.Run (step (.sample .kraken none)) (EchoServer (.sample .kraken none))
        World.init crossedReplies w ∧ w.subscriptions.map Prod.fst = ["book", "ticker"] :=
    Transition.Run.exists_of_exec (by decide +kernel)
  exact ⟨w, requests_correlate hrun, hsubs⟩

end ProxyClient.Websocket
