import ProxyClient.Errors
import Std.Data.String.ToNat

/-!
# The wire vocabulary of a venue

`_dialect.py`: how a request is framed and keyed, which field of an inbound frame
correlates it, which field names its channel, and how a rejection becomes an exception.
Kraken keys a request by its number and OKX by the decimal string of that number.
-/

namespace ProxyClient.Websocket

/-- The built-in dialects, each the wire format of one venue. -/
inductive Dialect
  | kraken
  | okx
  deriving DecidableEq

/-- `_drop_none`: the entries whose value is not `None`. -/
def dropNone (params : Params) : Params := params.filter (fun field => field.2 ≠ .null)

/-- `OKXDialect._SUBSCRIBE_OPS`, the only methods that the dialect can frame. -/
def subscribeOps : List String := ["subscribe", "unsubscribe"]

/-- `KrakenDialect.request_frame`: the number of a request is its `req_id`, and an order carries it
as its `id` too. -/
def krakenRequestFrame (method : String) (params : Option Params) (reqId : ℕ)
    (idempotencyKey : Option String) (isOrder : Bool) : Fields × Key :=
  let params := (params.getD .empty).fields
  let idempotencyKey := idempotencyKey.getD ""
  ([("method", .str method), ("req_id", .int reqId)] ++
      (if params.isEmpty then [] else [("params", .obj params)]) ++
      (if isOrder then [("id", .int reqId)] else []) ++
      (if idempotencyKey = "" then [] else [("idempotency_key", .str idempotencyKey)]),
    .num reqId)

/-- `OKXDialect.request_frame`: the number of a request is its `id`, written as a string, and its
params are its one argument. -/
def okxRequestFrame (method : String) (params : Option Params) (reqId : ℕ) (isOrder : Bool) :
    Except PyError (Fields × Key) :=
  if isOrder then .error .notImplementedError
  else if method ∉ subscribeOps then .error .notImplementedError
  else
    let wireId := Nat.repr reqId
    .ok ([("op", .str method), ("args", .arr [.obj (dropNone (params.getD .empty)).fields]),
        ("id", .str wireId)],
      .str wireId)

namespace Dialect

/-- `request_frame`: the outbound frame and the key its reply is registered under. -/
def requestFrame (d : Dialect) (method : String) (params : Option Params) (reqId : ℕ)
    (idempotencyKey : Option String) (isOrder : Bool) : Except PyError (Fields × Key) :=
  match d with
  | kraken => .ok (krakenRequestFrame method params reqId idempotencyKey isOrder)
  | okx => okxRequestFrame method params reqId isOrder

/-- `response_key`: what in a frame says to which request it replies. -/
def responseKey (d : Dialect) (msg : Fields) : Json :=
  match d with
  | kraken =>
    let ident := Fields.get msg "id"
    if ident ≠ .null then ident else Fields.get msg "req_id"
  | okx => Fields.get msg "id"

/-- `channel_of`: the channel on which a frame was published, if it was published on one. -/
def channelOf (d : Dialect) (msg : Fields) : Json :=
  match d with
  | kraken => Fields.get msg "channel"
  | okx =>
    match Fields.get msg "arg" with
    | .obj arg => Fields.get arg "channel"
    | _ => .null

end Dialect

/-- `KrakenDialect.error_of`: the exception for a frame that reports a failure. -/
def krakenErrorOf (py : Builtins) (msg : Fields) : Option Exc :=
  let defaultMessage := Json.str "the Proxy rejected the request"
  if Fields.get msg "event" = .str "error" then
    let data := Fields.get msg "data"
    let err := match data with
      | .obj data => Fields.get data "error"
      | _ => .null
    let requestId := Fields.getD msg "request_id" (.str "")
    match err with
    | .obj err =>
      some (raiseFromResponse (Fields.getD err "code" (.str "UNKNOWN"))
        (Fields.getD err "message" defaultMessage) (Fields.get err "detail") requestId none)
    | _ =>
      some (raiseFromResponse (.str (py.str (Fields.getD msg "code" (.str "UNKNOWN"))))
        (Fields.getD msg "message" defaultMessage) data requestId none)
  else if !(Fields.getD msg "success" (.bool true)).truthy then
    let error := py.str (Fields.getD msg "error" (.str "Unknown error"))
    some (.webSocketRequestError s!"WS request failed: {error}" msg)
  else none

/-- `OKXDialect.error_of`: the exception for a frame that reports a failure. -/
def okxErrorOf (py : Builtins) (msg : Fields) : Option Exc :=
  if Fields.get msg "event" = .str "error" then
    some (raiseFromResponse (.str (py.str (Fields.getD msg "code" (.str "UNKNOWN"))))
      (Fields.getD msg "message" (.str "the Proxy rejected the request"))
      (Fields.get msg "detail") (Fields.getD msg "request_id" (.str "")) none)
  else none

/-- `error_of`: the exception a reply raises in `request()`, if it is a rejection. -/
def Dialect.errorOf (d : Dialect) (py : Builtins) (msg : Fields) : Option Exc :=
  match d with
  | .kraken => krakenErrorOf py msg
  | .okx => okxErrorOf py msg

/-- The key under which the dialect registers the request with a given number. -/
def Dialect.keyOf (d : Dialect) (reqId : ℕ) : Key :=
  match d with
  | .kraken => .num reqId
  | .okx => .str (Nat.repr reqId)

/-- Distinct request numbers have distinct keys, so a reply cannot be taken for another. -/
theorem Dialect.keyOf_injective (d : Dialect) : Function.Injective d.keyOf := by
  intro m n h
  cases d with
  | kraken =>
    have hcast : (m : ℚ) = n := by simpa [Dialect.keyOf] using h
    exact_mod_cast hcast
  | okx => exact Nat.repr_inj.mp (by simpa [Dialect.keyOf] using h)

/-- A frame is registered under the key of its own request number. -/
theorem Dialect.requestFrame_key {d : Dialect} {method : String} {params : Option Params}
    {reqId : ℕ} {idempotencyKey : Option String} {isOrder : Bool} {frame : Fields} {key : Key}
    (h : d.requestFrame method params reqId idempotencyKey isOrder = .ok (frame, key)) :
    key = d.keyOf reqId := by
  cases d with
  | kraken =>
    simp only [requestFrame, krakenRequestFrame, Except.ok.injEq, Prod.mk.injEq] at h
    exact h.2.symm
  | okx =>
    simp only [requestFrame, okxRequestFrame] at h
    split at h
    · cases h
    · split at h
      · cases h
      · simp only [Except.ok.injEq, Prod.mk.injEq] at h
        exact h.2.symm

end ProxyClient.Websocket
