import ProxyClient.HandleResponse

/-!
# The reporting client, and the errors of both HTTP clients

`ReportingClient` classifies a response as `ProxyClient` does and returns the whole body; two of
its methods then subscript the body. A caller catches `ProxyError` only. The last theorem says
for which responses a request method of either client raises something else.
-/

namespace ProxyClient

/-- `ReportingClient._handle_response`, which returns the body as it is. -/
def reportingHandleResponse (response : Response) : Except Exc Fields :=
  match response.body with
  | .error .valueError =>
    .error (.proxy (.unreachable s!"HTTP {response.status} with a non-JSON body"))
  | .error e => .error (.py e)
  | .ok (.obj parsed) =>
    if 400 ≤ response.status ∨ (parsed.lookup "error").isSome then
      match Fields.getD parsed "error" (.obj []) with
      | .obj err =>
        .error (raiseFromResponse
          (Fields.getD err "code" (.str s!"HTTP_{response.status}"))
          (Fields.getD err "message" (.str "the reporting API rejected the request"))
          (Fields.get err "detail")
          (Fields.getD err "request_id" (.str ""))
          none)
      | _ => .error (.py .attributeError)
    else .ok parsed
  | .ok value =>
    .error (.proxy (.unreachable (s!"HTTP {response.status} with an unexpected JSON shape " ++
      s!"({value.typeName}, expected an object)")))

/-- `_call()` and `_acall()` after `_prepare`: the post, and the answer to it. -/
def reportingCall (transport : Except String Response) : Except Exc Fields :=
  match transport with
  | .error text => .error (.proxy (.unreachable text))
  | .ok response => reportingHandleResponse response

/-- `fields[name]`, which raises `KeyError` for a name that is missing. -/
def Fields.subscript (fields : Fields) (name : String) : Except Exc Json :=
  match fields.lookup name with
  | some value => .ok value
  | none => .error (.py .keyError)

/-- `unresolved_orders()` and `aunresolved_orders()`, which return one field of the answer. -/
def unresolvedOrders (transport : Except String Response) : Except Exc Json :=
  (reportingCall transport).bind (fun parsed => Fields.subscript parsed "unresolved_orders")

/-- `log_health()` and `alog_health()`, which return the whole answer. -/
def logHealth (transport : Except String Response) : Except Exc Json :=
  (reportingCall transport).bind (fun parsed => .ok (.obj parsed))

/-- `auth_failures()` and `aauth_failures()`, which return one field of the answer. -/
def authFailures (transport : Except String Response) : Except Exc Json :=
  (reportingCall transport).bind (fun parsed => Fields.subscript parsed "auth_failures")

/-- `query_logs()` and `aquery_logs()`, which return the whole answer. -/
def queryLogs (transport : Except String Response) : Except Exc Json :=
  (reportingCall transport).bind (fun parsed => .ok (.obj parsed))

/-- The public request methods of both clients. -/
inductive RequestMethod
  | call
  | unresolvedOrders
  | logHealth
  | authFailures
  | queryLogs

/-- The exception of a computation, if it raises one. -/
def exceptionOf {α : Type} : Except Exc α → Option Exc
  | .ok _ => none
  | .error exc => some exc

/-- What a method raises when the transport answers, or fails, in the given way. -/
def RequestMethod.raises (py : Builtins) (transport : Except String Response) :
    RequestMethod → Option Exc
  | call => exceptionOf (ProxyClient.call py transport)
  | unresolvedOrders => exceptionOf (ProxyClient.unresolvedOrders transport)
  | logHealth => exceptionOf (ProxyClient.logHealth transport)
  | authFailures => exceptionOf (ProxyClient.authFailures transport)
  | queryLogs => exceptionOf (ProxyClient.queryLogs transport)

/-! ## Which responses raise typed errors only -/

/-- The exception is a `ProxyError`, as the README promises of every exception. -/
def Exc.Typed (exc : Exc) : Prop := ∃ e, exc = .proxy e

/-- The computation returns or raises a `ProxyError`. -/
def TypedOnly {α : Type} (result : Except Exc α) : Prop := ∀ exc, result = .error exc → exc.Typed

/-- The response reports a failure, by its status or by an `error` in its body. -/
def Response.Fails (response : Response) (parsed : Fields) : Prop :=
  400 ≤ response.status ∨ (parsed.lookup "error").isSome

/-- A failure that can be classified: its `error` is absent or an object, and the `code` in it
is absent or can be hashed. -/
def Fields.Classifiable (parsed : Fields) : Prop :=
  ∃ err, Fields.getD parsed "error" (.obj []) = .obj err ∧
    ∀ code, err.lookup "code" = some code → code.key?.isSome

/-- What a method needs to find in the body of a success. -/
def RequestMethod.Accepts (parsed : Fields) : RequestMethod → Prop
  | call => ∀ data, parsed.lookup "data" = some data →
      (∃ fields, data = .obj fields) ∨ data.dictLike = true
  | unresolvedOrders => (parsed.lookup "unresolved_orders").isSome
  | authFailures => (parsed.lookup "auth_failures").isSome
  | logHealth | queryLogs => True

/-- The response can be read by a method: the body raises nothing but `ValueError`, a failure
can be classified, and a success has what the method takes from it. -/
structure Response.Readable (response : Response) (method : RequestMethod) : Prop where
  body : ∀ e, response.body = .error e → e = .valueError
  failure : ∀ parsed, response.body = .ok (.obj parsed) → response.Fails parsed →
    Fields.Classifiable parsed
  success : ∀ parsed, response.body = .ok (.obj parsed) → ¬response.Fails parsed →
    method.Accepts parsed

/-- `from_response` builds an exception if and only if the code can be hashed. -/
theorem typed_raiseFromResponse {code message detail requestId : Json} {retryAfter : Option ℚ} :
    (raiseFromResponse code message detail requestId retryAfter).Typed ↔ code.key?.isSome := by
  constructor
  · rintro ⟨e, he⟩
    cases hkey : code.key? with
    | none => simp [raiseFromResponse, fromResponse, hkey] at he
    | some key => rfl
  · intro h
    obtain ⟨key, hkey⟩ := Option.isSome_iff_exists.mp h
    obtain ⟨e, he⟩ : ∃ e, fromResponse code message detail requestId retryAfter = .ok e := by
      simp only [fromResponse, hkey]
      split <;> exact ⟨_, rfl⟩
    exact ⟨e, by rw [raiseFromResponse, he]⟩

/-- The code that both clients hand to `from_response` can be hashed if and only if the one in
the response can. -/
theorem isSome_key_code {err : Fields} (text : String) :
    (Fields.getD err "code" (.str text)).key?.isSome ↔
      ∀ code, err.lookup "code" = some code → code.key?.isSome := by
  cases hcode : err.lookup "code" with
  | none => simp [Fields.getD, hcode, Json.key?]
  | some code => simp [Fields.getD, hcode]

section Readable

variable {response : Response} {method : RequestMethod} {parsed : Fields}

/-- A body that cannot be loaded leads to a typed error if and only if it is no JSON. -/
theorem readable_of_error {e : PyError} (hbody : response.body = .error e) :
    response.Readable method ↔ e = .valueError := by
  constructor
  · intro h
    exact h.body e hbody
  · rintro rfl
    refine ⟨?_, by simp [hbody], by simp [hbody]⟩
    intro e' he'
    exact (Except.error.inj (hbody.symm.trans he')).symm

/-- A body that is no object leads to a typed error. -/
theorem readable_of_shape {value : Json} (hbody : response.body = .ok value)
    (hshape : ∀ fields, value ≠ .obj fields) : response.Readable method := by
  have hno (parsed : Fields) : response.body ≠ .ok (.obj parsed) := by
    rw [hbody]
    intro h
    exact hshape parsed (Except.ok.inj h)
  exact ⟨by simp [hbody], fun parsed h => absurd h (hno parsed),
    fun parsed h => absurd h (hno parsed)⟩

/-- A failure leads to a typed error if and only if it can be classified. -/
theorem readable_of_fails (hbody : response.body = .ok (.obj parsed))
    (hfails : response.Fails parsed) :
    response.Readable method ↔ Fields.Classifiable parsed := by
  constructor
  · intro h
    exact h.failure parsed hbody hfails
  · intro h
    refine ⟨by simp [hbody], ?_, ?_⟩
    · intro parsed' hbody' _
      obtain rfl := Response.parsed_unique hbody hbody'
      exact h
    · intro parsed' hbody' hfine
      obtain rfl := Response.parsed_unique hbody hbody'
      exact absurd hfails hfine

/-- A success leads to no other exception if and only if the method accepts it. -/
theorem readable_of_not_fails (hbody : response.body = .ok (.obj parsed))
    (hfine : ¬response.Fails parsed) : response.Readable method ↔ method.Accepts parsed := by
  constructor
  · intro h
    exact h.success parsed hbody hfine
  · intro h
    refine ⟨by simp [hbody], ?_, ?_⟩
    · intro parsed' hbody' hfails
      obtain rfl := Response.parsed_unique hbody hbody'
      exact absurd hfails hfine
    · intro parsed' hbody' _
      obtain rfl := Response.parsed_unique hbody hbody'
      exact h

end Readable

/-- A result raises nothing. -/
@[simp] theorem typedOnly_ok {α : Type} (a : α) : TypedOnly (.ok a : Except Exc α) := by
  intro exc h
  cases h

/-- An exception that is raised is to be typed. -/
@[simp] theorem typedOnly_error {α : Type} (exc : Exc) :
    TypedOnly (.error exc : Except Exc α) ↔ exc.Typed := by
  constructor
  · intro h
    exact h exc rfl
  · intro h exc' he
    obtain rfl := Except.error.inj he
    exact h

/-- A `ProxyError` is typed. -/
@[simp] theorem typed_proxy (e : ProxyError) : (Exc.proxy e).Typed := ⟨e, rfl⟩

/-- An exception of Python itself is not. -/
@[simp] theorem typed_py (e : PyError) : ¬(Exc.py e).Typed := by
  rintro ⟨e', he⟩
  cases he

/-- A failure whose `error` is no object cannot be classified. -/
theorem not_classifiable {parsed : Fields}
    (h : ∀ err, Fields.getD parsed "error" (.obj []) = .obj err → False) :
    ¬Fields.Classifiable parsed := by
  rintro ⟨err, herr, -⟩
  exact h err herr

/-- `call()` accepts the data that `dict()` accepts. -/
theorem accepts_call (parsed : Fields) :
    RequestMethod.call.Accepts parsed ↔
      ∃ items, dictOf (Fields.getD parsed "data" (.obj [])) = .ok items := by
  rw [dictOf_eq_ok]
  cases hdata : parsed.lookup "data" with
  | none => simp [RequestMethod.Accepts, Fields.getD, hdata]
  | some data => simp [RequestMethod.Accepts, Fields.getD, hdata]

/-- `ProxyClient._handle_response` raises typed errors only if and only if the response is
readable. -/
theorem typedOnly_handleResponse (py : Builtins) (response : Response) :
    TypedOnly (handleResponse py response) ↔ response.Readable .call := by
  unfold handleResponse
  split
  · rename_i hbody
    simp [readable_of_error hbody]
  · rename_i e hne hbody
    rw [readable_of_error hbody]
    simpa using hne
  · rename_i parsed hbody
    split
    · rename_i hfails
      rw [readable_of_fails hbody hfails]
      split
      · rename_i err herr
        simp [typed_raiseFromResponse, isSome_key_code, Fields.Classifiable, herr]
      · rename_i hno
        simp [not_classifiable hno]
    · rename_i hfine
      rw [readable_of_not_fails hbody hfine, accepts_call]
      split
      · rename_i items hitems
        simp [hitems]
      · rename_i e hitems
        simp [hitems]
  · rename_i value hshape hbody
    simp [readable_of_shape hbody hshape]

/-- A method of the reporting client raises typed errors only if and only if the response is
readable, when what it does with the body of a success does so for the bodies it accepts. -/
theorem typedOnly_reporting {α : Type} {method : RequestMethod} {k : Fields → Except Exc α}
    (hk : ∀ parsed, TypedOnly (k parsed) ↔ method.Accepts parsed) (response : Response) :
    TypedOnly ((reportingHandleResponse response).bind k) ↔ response.Readable method := by
  unfold reportingHandleResponse
  split
  · rename_i hbody
    simp [readable_of_error hbody, Except.bind]
  · rename_i e hne hbody
    rw [readable_of_error hbody]
    simpa [Except.bind] using hne
  · rename_i parsed hbody
    split
    · rename_i hfails
      rw [readable_of_fails hbody hfails]
      split
      · rename_i err herr
        simp [Except.bind, typed_raiseFromResponse, isSome_key_code, Fields.Classifiable, herr]
      · rename_i hno
        simp [Except.bind, not_classifiable hno]
    · rename_i hfine
      rw [readable_of_not_fails hbody hfine]
      exact hk parsed
  · rename_i value hshape hbody
    simp [readable_of_shape hbody hshape, Except.bind]

/-- Subscripting a body raises a `KeyError` if and only if the key is missing. -/
theorem typedOnly_subscript (parsed : Fields) (name : String) :
    TypedOnly (Fields.subscript parsed name) ↔ (parsed.lookup name).isSome := by
  unfold Fields.subscript
  split
  · rename_i value hvalue
    simp [hvalue]
  · rename_i hnone
    simp [hnone]

/-- The exceptions of a computation are typed if and only if those it is asked for are. -/
theorem typedOnly_iff_exceptionOf {α : Type} (result : Except Exc α) :
    (∀ exc, exceptionOf result = some exc → exc.Typed) ↔ TypedOnly result := by
  cases result <;> simp [exceptionOf]

/-- A request method of either client raises nothing but a `ProxyError` if and only if the
response, where there is one, can be read by it. -/
theorem raises_typed_iff (py : Builtins) (method : RequestMethod)
    (transport : Except String Response) :
    (∀ exc, method.raises py transport = some exc → ∃ e, exc = .proxy e) ↔
      ∀ response, transport = .ok response → response.Readable method := by
  change (∀ exc, method.raises py transport = some exc → exc.Typed) ↔ _
  cases transport with
  | error text =>
    cases method <;>
      simp [RequestMethod.raises, typedOnly_iff_exceptionOf, call, unresolvedOrders, logHealth,
        authFailures, queryLogs, reportingCall, Except.bind]
  | ok response =>
    simp only [Except.ok.injEq, forall_eq']
    cases method with
    | call => exact (typedOnly_iff_exceptionOf _).trans (typedOnly_handleResponse py response)
    | unresolvedOrders =>
      refine (typedOnly_iff_exceptionOf _).trans (typedOnly_reporting ?_ response)
      intro parsed
      exact typedOnly_subscript parsed _
    | authFailures =>
      refine (typedOnly_iff_exceptionOf _).trans (typedOnly_reporting ?_ response)
      intro parsed
      exact typedOnly_subscript parsed _
    | logHealth =>
      refine (typedOnly_iff_exceptionOf _).trans (typedOnly_reporting ?_ response)
      intro parsed
      simp [RequestMethod.Accepts]
    | queryLogs =>
      refine (typedOnly_iff_exceptionOf _).trans (typedOnly_reporting ?_ response)
      intro parsed
      simp [RequestMethod.Accepts]

/-- An error that is no object ends a `call()` with `AttributeError`, a code that is a list with
`TypeError`, and a body without the expected key ends `unresolved_orders()` with `KeyError`. -/
theorem untyped_errors_escape :
    let py : Builtins := ⟨fun _ => "", fun _ => none⟩
    let answer (status : ℕ) (fields : Fields) : Except String Response :=
      .ok ⟨status, .ok (.obj fields), none, none⟩
    RequestMethod.call.raises py (answer 502 [("error", .str "bad gateway")]) =
        some (.py .attributeError) ∧
      RequestMethod.call.raises py (answer 400 [("error", .obj [("code", .arr [])])]) =
        some (.py .typeError) ∧
      RequestMethod.call.raises py (answer 200 [("data", .null)]) = some (.py .typeError) ∧
      RequestMethod.unresolvedOrders.raises py (answer 200 []) = some (.py .keyError) := by
  decide

end ProxyClient
