import ProxyClient.Websocket.Wire

/-!
# Idempotency keys of orders

An order without a key gets a fresh one, and a retry is to pass the key of its first attempt. So
every order frame of a call carries a key, and an order has the key of an earlier call only if
its caller gave that key. The frames that the application hands to `send()` are its own: the client
writes them as they are.
-/

namespace ProxyClient.Websocket

open Transition

variable {cfg : Config} {w₀ w w' : World} {e : Event} {k c : ℕ} {call : Call}

/-- Whether an operation is an order, by the method that it calls. -/
def Operation.isOrder : Operation → Bool
  | .request method _ _ _ _ => decide (method ∈ orderMethods)
  | _ => false

/-- The key that the caller of an operation gave. -/
def Operation.givenKey : Operation → String
  | .request _ _ _ idempotencyKey _ => idempotencyKey.getD ""
  | _ => ""

/-- The key that `new_idempotency_key()` would return for an operation. -/
def Operation.freshKey : Operation → String
  | .request _ _ _ _ freshKey => freshKey
  | _ => ""

/-- The operation that the application or a callback begins. -/
def Event.operation : Event → Option Operation
  | .call op | .callbackCall _ op => some op
  | _ => none

/-- The key that a frame carries, `null` for a frame without one. -/
def frameKey (frame : Fields) : Json := Fields.get frame "idempotency_key"

/-- `new_idempotency_key()` returns a key that no call has used. -/
structure FreshKeys (w : World) (e : Event) : Prop where
  nonempty : ∀ op ∈ e.operation, op.freshKey ≠ ""
  unused : ∀ op ∈ e.operation, ∀ call ∈ w.rpc.calls, frameKey call.frame ≠ .str op.freshKey

instance (w : World) (e : Event) : Decidable (FreshKeys w e) :=
  decidable_of_iff
    ((∀ op ∈ e.operation, op.freshKey ≠ "") ∧
      (∀ op ∈ e.operation, ∀ call ∈ w.rpc.calls, frameKey call.frame ≠ .str op.freshKey))
    ⟨fun h => ⟨h.1, h.2⟩, fun h => ⟨h.nonempty, h.unused⟩⟩

/-- A frame whose method is one of `ORDER_METHODS`. -/
def IsOrderFrame (frame : Fields) : Prop :=
  ∃ method ∈ orderMethods, Fields.get frame "method" = .str method

/-! ## Frames -/

/-- An order frame comes from an order, and only the Kraken dialect has it. -/
structure OrderFrame (op : Operation) (n : ℕ) (frame : Fields) : Prop where
  order : op.isOrder = true
  id : Fields.get frame "id" = .int n
  reqId : Fields.get frame "req_id" = .int n
  given : op.givenKey ≠ "" → frameKey frame = .str op.givenKey
  fresh : op.givenKey = "" → op.freshKey ≠ "" → frameKey frame = .str op.freshKey

/-- The method of a Kraken frame is the method of the request. -/
theorem krakenRequestFrame_method (method : String) (params : Option Params) (n : ℕ)
    (idempotencyKey : Option String) (isOrder : Bool) :
    Fields.get (krakenRequestFrame method params n idempotencyKey isOrder).1 "method" =
      .str method := by
  simp [krakenRequestFrame, Fields.get]

/-- An order frame carries its request number twice, and the idempotency key that it was given. -/
theorem krakenRequestFrame_order (method : String) (params : Option Params) (n : ℕ)
    (key : String) (frame : Fields)
    (h : (krakenRequestFrame method params n (some key) true).1 = frame) :
    Fields.get frame "id" = .int n ∧ Fields.get frame "req_id" = .int n ∧
      (key ≠ "" → frameKey frame = .str key) := by
  subst h
  simp only [krakenRequestFrame, frameKey, Fields.get]
  split
  · split <;> simp_all [List.lookup_cons]
  · split <;> simp_all [List.lookup_cons]

/-- The dialects other than Kraken's name no method. -/
theorem okxRequestFrame_method {method : String} {params : Option Params} {n : ℕ}
    {isOrder : Bool} {frame : Fields} {key : Key}
    (h : okxRequestFrame method params n isOrder = .ok (frame, key)) :
    Fields.get frame "method" = .null := by
  unfold okxRequestFrame at h
  split at h
  · cases h
  · split at h
    · cases h
    · cases h
      rfl

/-- A frame with the method of an order comes from an order, whose number it carries twice. -/
theorem orderFrame_of_requestFrame {d : Dialect} {op : Operation} {n : ℕ} {frame : Fields}
    {key : Key} (h : op.requestFrame d n = .ok (frame, key)) (hframe : IsOrderFrame frame) :
    OrderFrame op n frame := by
  obtain ⟨method, hmem, hmethod⟩ := hframe
  have named {m : String} {params : Option Params} {given : Option String} {isOrder : Bool}
      (h : d.requestFrame m params n given isOrder = .ok (frame, key)) :
      m = method ∧ d = .kraken := by
    cases d with
    | kraken =>
      have hsame : (krakenRequestFrame m params n given isOrder).1 = frame :=
        congrArg Prod.fst (Except.ok.inj h)
      rw [← hsame, krakenRequestFrame_method] at hmethod
      exact ⟨Json.str.inj hmethod, rfl⟩
    | okx =>
      rw [okxRequestFrame_method h] at hmethod
      cases hmethod
  cases op with
  | request m params timeout given fresh =>
    obtain ⟨rfl, rfl⟩ := named h
    have horder : decide (m ∈ orderMethods) = true := decide_eq_true hmem
    simp only [Operation.requestFrame, horder, if_true] at h
    obtain ⟨hid, hreqId, hkey⟩ :=
      krakenRequestFrame_order m params n _ frame (congrArg Prod.fst (Except.ok.inj h))
    refine { order := horder, id := hid, reqId := hreqId, given := ?_, fresh := ?_ }
    · intro hgiven
      rw [show keyOrFresh given fresh = given.getD "" from if_neg hgiven] at hkey
      exact hkey hgiven
    · intro hgiven hfresh
      rw [show keyOrFresh given fresh = fresh from if_pos hgiven] at hkey
      exact hkey hfresh
  | subscribe channel params persist =>
    obtain ⟨rfl, -⟩ := named h
    simp [orderMethods] at hmem
  | unsubscribe channel params =>
    obtain ⟨rfl, -⟩ := named h
    simp [orderMethods] at hmem
  | ping =>
    cases h
    cases hmethod

/-! ## Calls -/

/-- What the frame of a call with the method of an order says. -/
structure Keyed (call : Call) : Prop where
  key : ∃ key ≠ "", frameKey call.frame = .str key
  /-- Its number, twice. -/
  number : ∃ n : ℕ, Fields.get call.frame "id" = .int n ∧ Fields.get call.frame "req_id" = .int n
  given : call.op.givenKey ≠ "" → frameKey call.frame = .str call.op.givenKey

/-- The order that a step begins, the operation being that of its label. -/
theorem Begins.operation {op : Operation} (h : Begins w₀ e op) (horder : op.isOrder = true) :
    e.operation = some op := by
  cases h with
  | call => rfl
  | callback => rfl
  | replay => cases horder
  | heartbeat => cases horder

/-- What the calls and their keys have in common. -/
structure OrdersKeyed (w : World) : Prop where
  keyed : ∀ (k : ℕ) call, w.rpc.calls[k]? = some call → IsOrderFrame call.frame → Keyed call
  /-- An order has the key of an earlier call only if its caller gave it. -/
  repeated : ∀ (i j : ℕ) call call', i < j → w.rpc.calls[i]? = some call →
    w.rpc.calls[j]? = some call' → IsOrderFrame call'.frame →
    frameKey call'.frame = frameKey call.frame → call'.op.givenKey ≠ ""

/-- The call that a move begins, apart from how it stands. -/
theorem BeginsCall.begun {call' : Call} (h : BeginsCall cfg w₀ e w w' call') :
    ∃ call, Rpc.Same call call' ∧ BegunBy cfg w₀ e w call := by
  cases h with
  | launched hbegun => exact ⟨_, .refl _, hbegun⟩
  | @refused call hbegun => exact ⟨call, ⟨rfl, rfl, rfl, rfl, rfl⟩, hbegun⟩

/-- A call stays keyed, as its frame is fixed when it begins. -/
theorem Keyed.of_same {call' : Call} (hsame : Rpc.Same call call') (h : Keyed call) :
    Keyed call' where
  key := hsame.frame ▸ h.key
  number := hsame.frame ▸ h.number
  given := by
    rw [hsame.op, hsame.frame]
    exact h.given

/-- The frame of an order that begins, with fresh keys at hand. -/
theorem BegunBy.orderFrame (h : BegunBy cfg w₀ e w call) (hframe : IsOrderFrame call.frame) :
    e.operation = some call.op ∧ w.rpc = w₀.rpc ∧ ∃ n, OrderFrame call.op n call.frame := by
  have horder := orderFrame_of_requestFrame h.framed.frame hframe
  refine ⟨h.operation.operation horder.order, h.first ?_, _, horder⟩
  intro σ howner
  obtain ⟨channel, params, hop⟩ := h.fitting.replay σ howner
  have hno := horder.order
  rw [hop] at hno
  cases hno

/-- An order that begins in a step of fresh keys is keyed, for its key is the one of its
operation. -/
theorem BegunBy.keyed (h : BegunBy cfg w₀ e w call) (hfresh : FreshKeys w₀ e)
    (hframe : IsOrderFrame call.frame) : Keyed call := by
  obtain ⟨hop, -, n, horder⟩ := h.orderFrame hframe
  refine { key := ?_, number := ⟨n, horder.id, horder.reqId⟩, given := horder.given }
  by_cases hgiven : call.op.givenKey = ""
  · have hnonempty := hfresh.nonempty call.op hop
    exact ⟨_, hnonempty, horder.fresh hgiven hnonempty⟩
  · exact ⟨_, hgiven, horder.given hgiven⟩

/-- An order that begins with the key of an earlier call was given that key. -/
theorem BegunBy.repeated (h : BegunBy cfg w₀ e w call) (hfresh : FreshKeys w₀ e)
    (hframe : IsOrderFrame call.frame) {earlier : Call} (hearlier : w.rpc.calls[k]? = some earlier)
    (hkey : frameKey call.frame = frameKey earlier.frame) : call.op.givenKey ≠ "" := by
  obtain ⟨hop, hrpc, n, horder⟩ := h.orderFrame hframe
  intro hgiven
  have hdrawn := horder.fresh hgiven (hfresh.nonempty call.op hop)
  have hmem : earlier ∈ w₀.rpc.calls := hrpc ▸ List.mem_of_getElem? hearlier
  exact hfresh.unused call.op hop earlier hmem (hkey ▸ hdrawn)

/-- Every move keeps the keys of the calls apart. -/
theorem Move.ordersKeyed (h : Move cfg w₀ e w w') (hfresh : FreshKeys w₀ e)
    (hkeyed : OrdersKeyed w) : OrdersKeyed w' where
  keyed k call hcall hframe := by
    rcases h.call_origin hcall with ⟨call₀, hcall₀, hcontinues⟩ | ⟨-, hbegins⟩
    · have hsame := hcontinues.same_call
      exact (hkeyed.keyed k call₀ hcall₀ (hsame.frame ▸ hframe)).of_same hsame
    · obtain ⟨new, hsame, hbegun⟩ := hbegins.begun
      exact (hbegun.keyed hfresh (hsame.frame ▸ hframe)).of_same hsame
  repeated i j call call' hlt hcall hcall' hframe hkey := by
    have old (hi : i < w.rpc.calls.length) :
        ∃ call₀, w.rpc.calls[i]? = some call₀ ∧ call.frame = call₀.frame := by
      rcases h.call_origin hcall with ⟨call₀, hcall₀, hcontinues⟩ | ⟨rfl, -⟩
      · exact ⟨call₀, hcall₀, hcontinues.same_call.frame⟩
      · exact absurd hi (Nat.lt_irrefl _)
    rcases h.call_origin hcall' with ⟨call₀', hcall₀', hcontinues⟩ | ⟨rfl, hbegins⟩
    · obtain ⟨call₀, hcall₀, hsame₀⟩ :=
        old (hlt.trans (List.getElem?_eq_some_iff.mp hcall₀').1)
      have hsame := hcontinues.same_call
      rw [hsame.op]
      rw [hsame.frame] at hframe hkey
      exact hkeyed.repeated i j call₀ call₀' hlt hcall₀ hcall₀' hframe (hsame₀ ▸ hkey)
    · obtain ⟨call₀, hcall₀, hsame₀⟩ := old hlt
      obtain ⟨new, hsame, hbegun⟩ := hbegins.begun
      rw [hsame.op]
      rw [hsame.frame] at hframe hkey
      exact hbegun.repeated hfresh hframe hcall₀ (hsame₀ ▸ hkey)

/-- In every run of such steps no two order frames carry the same key. -/
theorem ordersKeyed_of_run {es : List Event}
    (hrun : Run (step cfg) FreshKeys World.init es w) : OrdersKeyed w := by
  have hinit : OrdersKeyed World.init :=
    { keyed := by simp [World.init]
      repeated := by simp [World.init] }
  refine hrun.invariant_of (fun hrun => sound_of_run hrun) hinit ?_
  rintro t e v hsound - hkeyed hfresh hstep
  have hmoves := step_moves hsound.linked hstep
  clear hstep
  induction hmoves with
  | refl => exact hkeyed
  | tail _ hlast ih => exact hlast.ordersKeyed hfresh ih

/-! ## Orders on the wire -/

/-- A frame of the application's own that was sent was sent before the move, or the application
hands it to `send()` in the step. -/
theorem Move.message_mem_sent (h : Move cfg w₀ e w w') {conn' : Connection} {frame : Fields}
    (hconn' : w'.conns[c]? = some conn') (hmem : .message frame ∈ conn'.sent) :
    (∃ conn, w.conns[c]? = some conn ∧ .message frame ∈ conn.sent) ∨ e = .send frame := by
  rcases h.conn_cases hconn' with hold | ⟨f, conn, halters, hold, rfl⟩ |
    ⟨k, fields, conn, hold, rfl, -⟩ | ⟨-, rfl⟩
  · exact .inl ⟨conn', hold, hmem⟩
  · rcases halters.sent_cases conn with ⟨hsent, -⟩ | ⟨-, -, -, -, hf⟩ | ⟨message, he, -, -, hf⟩
    · rw [hsent] at hmem
      exact .inl ⟨conn, hold, hmem⟩
    · rw [hf] at hmem
      rcases Connection.mem_sent_write hmem with hsent | ⟨hauth, -⟩
      · exact .inl ⟨conn, hold, hsent⟩
      · cases hauth
    · rw [hf] at hmem
      rcases Connection.mem_sent_write hmem with hsent | ⟨hmessage, -⟩
      · exact .inl ⟨conn, hold, hsent⟩
      · cases hmessage
        exact .inr he
  · rcases Connection.mem_sent_write hmem with hsent | ⟨hcall, -⟩
    · exact .inl ⟨conn, hold, hsent⟩
    · cases hcall
  · cases hmem

/-- A frame on the wire that neither a call nor the handshake has framed was handed to `send()` as
it is. -/
theorem sent_of_message {ok : World → Event → Prop} {es : List Event}
    (hrun : Run (step cfg) ok World.init es w) {conn : Connection} {frame : Fields}
    (hconn : w.conns[c]? = some conn) (hmem : .message frame ∈ conn.sent) : .send frame ∈ es := by
  induction hrun generalizing conn with
  | nil => simp [World.init] at hconn
  | @snoc es t u e hes _ hstep ih =>
    have hmoves := step_moves (sound_of_run hes).linked hstep
    have hbefore : (∃ conn, t.conns[c]? = some conn ∧ .message frame ∈ conn.sent) ∨
        e = .send frame := by
      clear hstep
      induction hmoves generalizing conn with
      | refl => exact .inl ⟨conn, hconn, hmem⟩
      | tail _ hlast ih =>
        rcases hlast.message_mem_sent hconn hmem with ⟨conn₀, hold, hin⟩ | he
        · exact ih hold hin
        · exact .inr he
    rcases hbefore with ⟨conn₀, hold, hin⟩ | rfl
    · exact List.mem_append_left _ (ih hold hin)
    · simp

/-- In every run in which `new_idempotency_key()` returns unused keys, every order frame that a
call has put on the wire carries a key, the one that its caller gave if there is one, and an order
has the key of an earlier call only if its caller gave that key. An order frame that no call has
put there, which may be without a key, is one that the application itself handed to `send()`. -/
theorem order_frames_keyed {es : List Event}
    (hrun : Run (step cfg) FreshKeys World.init es w) :
    (∀ (c : ℕ) conn k frame, w.conns[c]? = some conn → .call k frame ∈ conn.sent →
      IsOrderFrame frame → ∃ call, w.rpc.calls[k]? = some call ∧ call.frame = frame ∧
        Keyed call) ∧
    (∀ (i j : ℕ) call call', i < j → w.rpc.calls[i]? = some call → w.rpc.calls[j]? = some call' →
      IsOrderFrame call'.frame → frameKey call'.frame = frameKey call.frame →
        frameKey call'.frame = .str call'.op.givenKey) ∧
    (∀ (c : ℕ) conn frame, w.conns[c]? = some conn → .message frame ∈ conn.sent →
      .send frame ∈ es) := by
  have hkeyed := ordersKeyed_of_run hrun
  refine ⟨?_, ?_, ?_⟩
  · intro c conn k frame hconn hmem hframe
    obtain ⟨call, hcall, -, rfl⟩ := (wired_of_run hrun).owned c conn k frame hconn hmem
    exact ⟨call, hcall, rfl, hkeyed.keyed k call hcall hframe⟩
  · intro i j call call' hlt hcall hcall' hframe hkey
    have hgiven := hkeyed.repeated i j call call' hlt hcall hcall' hframe hkey
    exact (hkeyed.keyed j call' hcall' hframe).given hgiven
  · intro c conn frame hconn hmem
    exact sent_of_message hrun hconn hmem

/-- Two orders without a key and the retry of the first. -/
def ordersEvents : List Event :=
  startEvents ++ [.call (.request "add_order" none 10 none "a"), .sent 0,
    .call (.request "add_order" none 10 none "b"), .sent 1,
    .call (.request "add_order" none 10 (some "a") "c"), .sent 2]

/-- The retry with the key of the first order repeats it, and the second order does not. -/
theorem order_frames_keyed_retried :
    ∃ w, Run (step (.sample .kraken none)) FreshKeys World.init ordersEvents w ∧
      (w.rpc.calls.map (fun call => frameKey call.frame) = [.str "a", .str "b", .str "a"]) ∧
      ∃ call ∈ w.rpc.calls[2]?, frameKey call.frame = .str call.op.givenKey := by
  obtain ⟨w, hrun, hkeys, ⟨first, hfirst, hfirstKey⟩, retry, hretry, hretryKey⟩ :
      ∃ w, Run (step (.sample .kraken none)) FreshKeys World.init ordersEvents w ∧
        (w.rpc.calls.map (fun call => frameKey call.frame) = [.str "a", .str "b", .str "a"]) ∧
        (∃ call ∈ w.rpc.calls[0]?, frameKey call.frame = .str "a") ∧
        ∃ call ∈ w.rpc.calls[2]?, frameKey call.frame = .str "a" ∧
          Fields.get call.frame "method" = .str "add_order" :=
    Run.exists_of_exec (by decide +kernel)
  have hframe : IsOrderFrame retry.frame := ⟨_, by simp [orderMethods], hretryKey.2⟩
  exact ⟨w, hrun, hkeys, retry, hretry, (order_frames_keyed hrun).2.1 0 2 first retry (by simp)
    hfirst hretry hframe (hretryKey.1.trans hfirstKey.symm)⟩

end ProxyClient.Websocket
