import ProxyClient.HandleResponse
import ProxyClient.Websocket.Dialect

/-!
# One error over four routes

The Proxy reports the same error in a REST envelope, in a nested Kraken frame and in a flat
frame that either dialect may have to read. Three of the four routes report all of it. The
Kraken dialect reads the detail of a flat frame from the field `data`, which the flat frame
does not have, so that the detail is lost there.
-/

namespace ProxyClient

open Websocket

/-- An error as the Proxy sends it. -/
structure WireError where
  code : String
  message : String
  detail : Json
  requestId : String

/-- The routes by which an error reaches a caller. -/
inductive Carrier
  /-- A REST response of some status, with a `Retry-After` header or without. -/
  | rest (status : ℕ) (retryAfter : Option String)
  | krakenNested
  | krakenFlat
  | okxFlat

namespace WireError

/-- `{"code", "message", "detail"}`, the error object inside of an envelope. -/
def core (e : WireError) : Fields :=
  [("code", .str e.code), ("message", .str e.message), ("detail", e.detail)]

/-- The REST response with the error's envelope. -/
def envelope (e : WireError) (status : ℕ) (retryAfter : Option String) : Response where
  status := status
  body := .ok (.obj [("error", .obj (e.core ++ [("request_id", .str e.requestId)]))])
  retryAfter := retryAfter
  idempotentReplay := none

/-- The nested Kraken frame, which has the error under `data`. -/
def nestedFrame (e : WireError) : Fields :=
  [("event", .str "error"), ("request_id", .str e.requestId),
    ("data", .obj [("error", .obj e.core)])]

/-- The flat frame of the server's shared `_send_error`. -/
def flatFrame (e : WireError) : Fields :=
  [("event", .str "error"), ("code", .str e.code), ("message", .str e.message),
    ("request_id", .str e.requestId), ("detail", e.detail)]

/-- The exception that the error becomes over a route. -/
def exception (e : WireError) (py : Builtins) : Carrier → Option Exc
  | .rest status retryAfter =>
    match handleResponse py (e.envelope status retryAfter) with
    | .ok _ => none
    | .error exc => some exc
  | .krakenNested => krakenErrorOf py e.nestedFrame
  | .krakenFlat => krakenErrorOf py e.flatFrame
  | .okxFlat => okxErrorOf py e.flatFrame

end WireError

/-- What a caller sees of a `ProxyError`. -/
structure Report where
  cls : ErrorClass
  code : Json
  retryable : Option Bool
  message : Json
  detail : Json
  requestId : Json
  outcomeUnknown : Bool
  deriving DecidableEq

/-- The report of a typed error: what a caller can tell about it. -/
def ProxyError.report (e : ProxyError) : Report where
  cls := e.cls
  code := e.code
  retryable := e.retryable
  message := e.message
  detail := e.detail
  requestId := e.requestId
  outcomeUnknown := e.outcomeUnknown

/-- The report of an exception, if it is a typed error. -/
def Exc.report : Exc → Option Report
  | proxy e => some e.report
  | _ => none

/-- What a caller sees of an error over a route. -/
def WireError.reportOver (e : WireError) (py : Builtins) (carrier : Carrier) : Option Report :=
  (e.exception py carrier).bind Exc.report

/-- The report of an error whose every field arrived. -/
def WireError.fullReport (e : WireError) : Report :=
  ProxyError.report
    ⟨(ErrorClass.byCode e.code).getD .proxyError, .str e.code, .str e.message, e.detail,
      .str e.requestId, none⟩

variable (e : WireError) (py : Builtins)

/-- The REST route reports every field that the Proxy sent. -/
theorem reportOver_rest (status : ℕ) (retryAfter : Option String) :
    e.reportOver py (.rest status retryAfter) = some e.fullReport := by
  have hlookup : (List.lookup "error"
      [("error", Json.obj (e.core ++ [("request_id", .str e.requestId)]))]).isSome = true := rfl
  simp only [WireError.reportOver, WireError.exception, handleResponse, WireError.envelope,
    hlookup, or_true, if_true]
  simp [Fields.getD, Fields.get, WireError.core, List.lookup_cons, Exc.report, ProxyError.report,
    ProxyError.retryable, ProxyError.outcomeUnknown, WireError.fullReport]

/-- The nested Kraken frame reports every field. -/
theorem reportOver_krakenNested : e.reportOver py .krakenNested = some e.fullReport := by
  simp [WireError.reportOver, WireError.exception, krakenErrorOf, WireError.nestedFrame,
    WireError.core, Fields.getD, Fields.get, List.lookup_cons, Exc.report, ProxyError.report,
    ProxyError.retryable, ProxyError.outcomeUnknown, WireError.fullReport]

/-- The OKX dialect reports every field of the flat frame. -/
theorem reportOver_okxFlat : e.reportOver py .okxFlat = some e.fullReport := by
  simp [WireError.reportOver, WireError.exception, okxErrorOf, WireError.flatFrame, Builtins.str,
    Fields.getD, Fields.get, List.lookup_cons, Exc.report, ProxyError.report, ProxyError.retryable,
    ProxyError.outcomeUnknown, WireError.fullReport]

/-- The Kraken dialect reports the flat frame of the same error without its detail. -/
theorem reportOver_krakenFlat :
    e.reportOver py .krakenFlat = some { e with detail := .null : WireError }.fullReport := by
  simp [WireError.reportOver, WireError.exception, krakenErrorOf, WireError.flatFrame,
    Builtins.str, Fields.getD, Fields.get, List.lookup_cons, Exc.report, ProxyError.report,
    ProxyError.retryable, ProxyError.outcomeUnknown, WireError.fullReport]

/-- All routes report an error the same way if and only if it has no detail. -/
theorem routes_agree_iff :
    (∀ a b : Carrier, e.reportOver py a = e.reportOver py b) ↔ e.detail = .null := by
  constructor
  · intro h
    have hflat := h .krakenFlat .okxFlat
    rw [reportOver_krakenFlat, reportOver_okxFlat] at hflat
    have hdetail := congrArg Report.detail (Option.some.inj hflat)
    exact hdetail.symm
  · intro hnull
    have hflat : e.reportOver py .krakenFlat = some e.fullReport := by
      rw [reportOver_krakenFlat, ← hnull]
    have hfull (carrier : Carrier) : e.reportOver py carrier = some e.fullReport := by
      cases carrier with
      | rest status retryAfter => exact reportOver_rest e py status retryAfter
      | krakenNested => exact reportOver_krakenNested e py
      | krakenFlat => exact hflat
      | okxFlat => exact reportOver_okxFlat e py
    intro a b
    rw [hfull a, hfull b]

/-- An order whose outcome is unknown is reported as definitively rejected over a flat frame
by the Kraken dialect, and as unknown by the OKX dialect. -/
theorem kraken_flat_hides_unknown_outcome :
    let e : WireError :=
      ⟨"EXCHANGE_ERROR", "timeout", .obj [("outcome_unknown", .bool true)], "r-1"⟩
    let py : Builtins := ⟨fun _ => "", fun _ => none⟩
    (e.reportOver py .krakenFlat).map Report.outcomeUnknown = some false ∧
      (e.reportOver py .okxFlat).map Report.outcomeUnknown = some true := by
  decide

end ProxyClient
