import ProxyClient.Json

/-!
# Typed errors

`errors.py`: one exception class for each code the Proxy sends, a retry verdict for
each class, and `from_response`, which turns a code into an exception. A code may be
any JSON value by the time it is looked up, since most callers read it from a frame.
-/

namespace ProxyClient

/-- The builtin exceptions that the modelled code raises or meets. -/
inductive PyError
  | attributeError
  | typeError
  | valueError
  | assertionError
  | runtimeError
  | notImplementedError
  | osError
  | connectionClosed
  | concurrencyError
  | keyError
  | overflowError
  | recursionError
  deriving DecidableEq

/-- The two builtins whose digit-level results nothing below depends on. -/
structure Builtins where
  /-- `str(value)` of a float, a list or a dict. -/
  repr : Json → String
  /-- `float(text)`, with `none` for the `ValueError`. -/
  float : String → Option ℚ

/-- `str(value)`, which Python makes of the parts for a float, a list or a dict. -/
def Builtins.str (py : Builtins) : Json → String
  | .null => "None"
  | .bool b => if b then "True" else "False"
  | .int n => toString n
  | .str s => s
  | value => py.repr value

/-- The exception classes of `errors.py`, which all derive from `ProxyError`. -/
inductive ErrorClass
  | proxyError
  | proxyUnreachableError
  | authFailedError
  | credentialExpiredError
  | actionNotPermittedError
  | exchangeError
  | malformedRequestError
  | idempotencyKeyRequiredError
  | idempotencyKeyReusedError
  | idempotencyInFlightError
  | logUnavailableError
  | rateLimitedError
  | streamParamsConflictError
  | riskLimitExceededError
  | killSwitchActiveError
  deriving DecidableEq

namespace ErrorClass

/-- The class attribute `code`, which an instance keeps unless its constructor is given another. -/
def code : ErrorClass → String
  | proxyError => "UNKNOWN"
  | proxyUnreachableError => "PROXY_UNREACHABLE"
  | authFailedError => "AUTH_FAILED"
  | credentialExpiredError => "CREDENTIAL_EXPIRED"
  | actionNotPermittedError => "ACTION_NOT_PERMITTED"
  | exchangeError => "EXCHANGE_ERROR"
  | malformedRequestError => "MALFORMED_REQUEST"
  | idempotencyKeyRequiredError => "IDEMPOTENCY_KEY_REQUIRED"
  | idempotencyKeyReusedError => "IDEMPOTENCY_KEY_REUSED"
  | idempotencyInFlightError => "IDEMPOTENCY_IN_FLIGHT"
  | logUnavailableError => "LOG_UNAVAILABLE"
  | rateLimitedError => "RATE_LIMITED"
  | streamParamsConflictError => "STREAM_PARAMS_CONFLICT"
  | riskLimitExceededError => "RISK_LIMIT_EXCEEDED"
  | killSwitchActiveError => "KILL_SWITCH_ACTIVE"

/-- The class attribute `retryable`; `none` means that the code alone does not decide. -/
def retryable : ErrorClass → Option Bool
  | proxyUnreachableError | exchangeError | killSwitchActiveError => none
  | idempotencyInFlightError | logUnavailableError | rateLimitedError => some true
  | _ => some false

/-- The classes listed in `_BY_CODE`, each under its own code. -/
def listed : List ErrorClass :=
  [authFailedError, credentialExpiredError, actionNotPermittedError, exchangeError,
    malformedRequestError, idempotencyKeyRequiredError, idempotencyKeyReusedError,
    idempotencyInFlightError, logUnavailableError, rateLimitedError, streamParamsConflictError,
    riskLimitExceededError, killSwitchActiveError]

/-- `_BY_CODE.get(code)` for a string: the class that is listed with that code, if there is one. -/
def byCode (code : String) : Option ErrorClass := listed.find? (fun cls => cls.code = code)

end ErrorClass

/-- A raised `ProxyError` with the attributes its constructor sets. -/
structure ProxyError where
  /-- The exception's class. -/
  cls : ErrorClass
  /-- `self.code`: the class attribute unless the constructor was given one. -/
  code : Json
  /-- `self.message`. -/
  message : Json
  /-- `self.detail`. -/
  detail : Json
  /-- `self.request_id`. -/
  requestId : Json
  /-- `self.retry_after`, set on a `RateLimitedError` only. -/
  retryAfter : Option ℚ
  deriving DecidableEq

namespace ProxyError

/-- The attribute `retryable`, which an instance has from its class. -/
def retryable (e : ProxyError) : Option Bool := e.cls.retryable

/-- `ExchangeError.outcome_unknown`: whether the venue may have acted on the request. -/
def outcomeUnknown (e : ProxyError) : Bool :=
  match e.detail with
  | .obj fields => (Fields.get fields "outcome_unknown").truthy
  | _ => false

/-- `ProxyUnreachableError(message)`, as a call raises it when the post fails. -/
def unreachable (message : String) : ProxyError where
  cls := .proxyUnreachableError
  code := .str ErrorClass.proxyUnreachableError.code
  message := .str message
  detail := .null
  requestId := .str ""
  retryAfter := none

end ProxyError

/-- `from_response`. The table is looked up with an arbitrary value, and a list or a dict in
its place raises `TypeError`. -/
def fromResponse (code message detail requestId : Json) (retryAfter : Option ℚ) :
    Except PyError ProxyError :=
  match code.key? with
  | none => .error .typeError
  | some key =>
    let cls := match key with
      | .str s => ErrorClass.byCode s
      | _ => none
    match cls with
    | none =>
      -- A constructor given the code `None` leaves the class attribute in place.
      let code := if code = .null then .str ErrorClass.proxyError.code else code
      .ok ⟨.proxyError, code, message, detail, requestId, none⟩
    | some .rateLimitedError =>
      .ok ⟨.rateLimitedError, .str ErrorClass.rateLimitedError.code, message, detail, requestId,
        retryAfter⟩
    | some cls => .ok ⟨cls, .str cls.code, message, detail, requestId, none⟩

/-- The exceptions that reach a caller or end a task. -/
inductive Exc
  /-- A builtin exception, or one of `websockets`' own. -/
  | py (e : PyError)
  /-- A `ProxyError` subclass. -/
  | proxy (e : ProxyError)
  /-- `WebSocketRequestError(message, response=…)`. -/
  | webSocketRequestError (message : String) (response : Fields)
  /-- `ConnectionError("WebSocket connection ended")`. -/
  | connectionEnded
  /-- `ConnectionError(f"WebSocket connection lost: {cause}")` with its `__cause__`. -/
  | connectionLost (cause : Exc)
  /-- `asyncio.TimeoutError`. -/
  | timeoutError
  /-- `asyncio.CancelledError`, which is no `Exception`. -/
  | cancelledError
  deriving DecidableEq

/-- `isinstance(exc, ConnectionError)`, which holds of the exceptions that end a request in
flight. -/
def Exc.isConnectionError : Exc → Bool
  | connectionEnded | connectionLost _ => true
  | _ => false

/-- Raise the exception that `from_response` builds, or its own `TypeError`. -/
def raiseFromResponse (code message detail requestId : Json) (retryAfter : Option ℚ) : Exc :=
  match fromResponse code message detail requestId retryAfter with
  | .ok e => .proxy e
  | .error e => .py e

/-- The table maps a code to a class with that code. -/
theorem ErrorClass.code_of_byCode {code : String} {cls : ErrorClass}
    (h : ErrorClass.byCode code = some cls) : cls.code = code := by
  simpa using List.find?_some h

/-- The exception for a string code carries that code and everything it was given, and its
class is the listed one or the base class. -/
theorem fromResponse_str (code : String) (message detail requestId : Json)
    (retryAfter : Option ℚ) :
    fromResponse (.str code) message detail requestId retryAfter =
      .ok ⟨(ErrorClass.byCode code).getD .proxyError, .str code, message, detail, requestId,
        if ErrorClass.byCode code = some .rateLimitedError then retryAfter else none⟩ := by
  simp only [fromResponse, Json.key?]
  cases h : ErrorClass.byCode code with
  | none => simp
  | some cls =>
    have hcode := ErrorClass.code_of_byCode h
    cases cls <;> simp_all

/-- For a string code, `from_response` always builds a typed exception. -/
@[simp] theorem raiseFromResponse_str (code : String) (message detail requestId : Json)
    (retryAfter : Option ℚ) :
    raiseFromResponse (.str code) message detail requestId retryAfter =
      .proxy ⟨(ErrorClass.byCode code).getD .proxyError, .str code, message, detail, requestId,
        if ErrorClass.byCode code = some .rateLimitedError then retryAfter else none⟩ := by
  rw [raiseFromResponse, fromResponse_str]

/-- The class that `from_response` assigns to a code: the listed one or the base class. -/
def ErrorClass.ofCode : Json → ErrorClass
  | .str code => (byCode code).getD .proxyError
  | _ => .proxyError

/-- `self.code` of the exception for a code. -/
def ErrorClass.codeAttribute (code : Json) : Json :=
  if code = .null then .str ErrorClass.proxyError.code else code

/-- The exception for a code that can be hashed carries everything it was given. -/
theorem raiseFromResponse_of_key {code : Json} (h : code.key?.isSome)
    (message detail requestId : Json) (retryAfter : Option ℚ) :
    raiseFromResponse code message detail requestId retryAfter =
      .proxy ⟨ErrorClass.ofCode code, ErrorClass.codeAttribute code, message, detail, requestId,
        if ErrorClass.ofCode code = .rateLimitedError then retryAfter else none⟩ := by
  cases code with
  | str code =>
    rw [raiseFromResponse_str]
    cases hcls : ErrorClass.byCode code <;>
      simp [ErrorClass.ofCode, ErrorClass.codeAttribute, hcls]
  | arr xs => cases h
  | obj fields => cases h
  | _ => rfl

/-- A list or a dict in the place of the code raises `TypeError`. -/
theorem raiseFromResponse_of_unhashable {code : Json} (h : code.key? = none)
    (message detail requestId : Json) (retryAfter : Option ℚ) :
    raiseFromResponse code message detail requestId retryAfter = .py .typeError := by
  simp only [raiseFromResponse, fromResponse, h]

end ProxyClient
