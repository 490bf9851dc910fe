import ProxyClient.Errors

/-!
# Classifying a REST response

`ProxyClient._handle_response`: a body that is not a JSON object means that something
other than the Proxy answered, an error envelope or a failure status raises the typed
exception of its code, and anything else is a `ProxyResult` built from `data`.
-/

namespace ProxyClient

/-- An HTTP response, as far as the client reads it. -/
structure Response where
  /-- `response.status_code`. -/
  status : ℕ
  /-- `response.json()`: a value, a `ValueError` for text that is not JSON, or another
  exception for JSON that is nested too deeply. -/
  body : Except PyError Json
  /-- The `Retry-After` header. -/
  retryAfter : Option String
  /-- The `X-Idempotent-Replay` header. -/
  idempotentReplay : Option String

/-- A `ProxyResult`: the assignments `dict(data)` makes, a later one winning, and the flag. -/
structure ProxyResult where
  /-- The result's items. -/
  items : List (Json × Json)
  /-- Whether the Proxy replayed the result of an earlier identical request. -/
  idempotentReplay : Bool
  deriving DecidableEq

/-- `_parse_retry_after`: the seconds of the header, if they are a number. -/
def parseRetryAfter (py : Builtins) (value : Option String) : Option ℚ := value.bind py.float

/-- `type(value).__name__`, as it stands in the message of a `TypeError`. -/
def Json.typeName : Json → String
  | .null => "NoneType"
  | .bool _ => "bool"
  | .int _ => "int"
  | .float _ => "float"
  | .str _ => "str"
  | .arr _ => "list"
  | .obj _ => "dict"

/-- One element of the sequence that `dict(xs)` reads: an iterable of exactly two values, the
first of them hashable. -/
def dictItem : Json → Except PyError (Json × Json)
  | .arr [key, value] => if key.key?.isSome then .ok (key, value) else .error .typeError
  | .arr _ => .error .valueError
  | .str s =>
    match s.toList with
    | [a, b] => .ok (.str (String.singleton a), .str (String.singleton b))
    | _ => .error .valueError
  | .obj [(a, _), (b, _)] => .ok (.str a, .str b)
  | .obj _ => .error .valueError
  | _ => .error .typeError

/-- `dict(value)` of a JSON value, which takes a sequence of pairs for a mapping too. -/
def dictOf : Json → Except PyError (List (Json × Json))
  | .obj fields => .ok (fields.map (fun field => (.str field.1, field.2)))
  | .arr xs => xs.mapM dictItem
  | .str s => s.toList.mapM (fun c => dictItem (.str (String.singleton c)))
  | _ => .error .typeError

/-- `ProxyClient._handle_response`: the data of a success, or the typed error of a failure. -/
def handleResponse (py : Builtins) (response : Response) : Except Exc ProxyResult :=
  match response.body with
  | .error .valueError =>
    .error (.proxy (.unreachable s!"HTTP {response.status} with a non-JSON body"))
  | .error e => .error (.py e)
  | .ok (.obj parsed) =>
    if 400 ≤ response.status ∨ (parsed.lookup "error").isSome then
      match Fields.getD parsed "error" (.obj []) with
      | .obj err =>
        .error (raiseFromResponse
          (Fields.getD err "code" (.str s!"HTTP_{response.status}"))
          (Fields.getD err "message" (.str "the Proxy rejected the request"))
          (Fields.get err "detail")
          (Fields.getD err "request_id" (.str ""))
          (parseRetryAfter py response.retryAfter))
      | _ => .error (.py .attributeError)
    else
      match dictOf (Fields.getD parsed "data" (.obj [])) with
      | .ok items => .ok ⟨items, response.idempotentReplay == some "1"⟩
      | .error e => .error (.py e)
  | .ok value =>
    .error (.proxy (.unreachable (s!"HTTP {response.status} with an unexpected JSON shape " ++
      s!"({value.typeName}, expected an object)")))

/-- `call()` and `acall()` after `_prepare`: the transport answers, or an `httpx.RequestError`
with the given text is raised. -/
def call (py : Builtins) (transport : Except String Response) : Except Exc ProxyResult :=
  match transport with
  | .error text => .error (.proxy (.unreachable text))
  | .ok response => handleResponse py response

/-! ## What `dict()` accepts -/

/-- A value that `dict()` takes for a key and its value, although it may be no list. -/
def Json.pairLike : Json → Bool
  | .arr [key, _] => key.key?.isSome
  | .str s => s.length == 2
  | .obj fields => fields.length == 2
  | _ => false

/-- A value that `dict()` reshapes into a dict: a list of such pairs, or the empty string. -/
def Json.dictLike : Json → Bool
  | .arr xs => xs.all Json.pairLike
  | .str s => s == ""
  | _ => false

/-- `dict(xs)` takes an element of its list if and only if it looks like a pair. -/
theorem dictItem_eq_ok (value : Json) :
    (∃ item, dictItem value = .ok item) ↔ value.pairLike = true := by
  cases value with
  | arr xs =>
    rcases xs with _ | ⟨key, _ | ⟨x, _ | ⟨y, rest⟩⟩⟩
    · simp [dictItem, Json.pairLike]
    · simp [dictItem, Json.pairLike]
    · cases hkey : key.key? <;> simp [dictItem, Json.pairLike, hkey]
    · simp [dictItem, Json.pairLike]
  | str s =>
    have hlength : s.length = s.toList.length := rfl
    simp only [dictItem, Json.pairLike, hlength]
    rcases s.toList with _ | ⟨a, _ | ⟨b, _ | ⟨c, rest⟩⟩⟩ <;> simp
  | obj fields =>
    rcases fields with _ | ⟨⟨a, x⟩, _ | ⟨⟨b, y⟩, _ | ⟨z, rest⟩⟩⟩ <;> simp [dictItem, Json.pairLike]
  | _ => simp [dictItem, Json.pairLike]

/-- Reading a list element by element succeeds if and only if every element can be read. -/
theorem mapM_eq_ok {α β ε : Type*} (f : α → Except ε β) (xs : List α) :
    (∃ ys, xs.mapM f = .ok ys) ↔ ∀ x ∈ xs, ∃ y, f x = .ok y := by
  induction xs with
  | nil => simp [pure, Except.pure]
  | cons x xs ih =>
    rw [List.mapM_cons, List.forall_mem_cons, ← ih]
    cases hx : f x with
    | error e => simp [bind, Except.bind]
    | ok y => cases hxs : xs.mapM f <;> simp [bind, Except.bind, pure, Except.pure]

/-- `dict(value)` succeeds for the objects and for what it reshapes. -/
theorem dictOf_eq_ok (value : Json) :
    (∃ items, dictOf value = .ok items) ↔
      (∃ fields, value = .obj fields) ∨ value.dictLike = true := by
  cases value with
  | obj fields => simp [dictOf]
  | arr xs =>
    simp only [dictOf, mapM_eq_ok, dictItem_eq_ok]
    simp [Json.dictLike]
  | str s =>
    simp only [dictOf, mapM_eq_ok, dictItem_eq_ok]
    have hnil : (∀ c, c ∉ s.toList) ↔ s = "" := by
      rw [← List.eq_nil_iff_forall_not_mem]
      simp
    simpa [Json.pairLike, Json.dictLike] using hnil
  | _ => simp [dictOf, Json.dictLike]

/-! ## Normal returns -/

/-- The body of a response is one object. -/
theorem Response.parsed_unique {response : Response} {parsed parsed' : Fields}
    (h : response.body = .ok (.obj parsed)) (h' : response.body = .ok (.obj parsed')) :
    parsed = parsed' :=
  Json.obj.inj (Except.ok.inj (h.symm.trans h'))

/-- A success: the body is an object without `error`, and its `data` is an object. -/
structure Response.Carries (response : Response) (data : Fields) : Prop where
  status : response.status < 400
  body : ∃ parsed, response.body = .ok (.obj parsed) ∧ parsed.lookup "error" = none ∧
    parsed.lookup "data" = some (.obj data)

/-- A success whose `data` is absent, or is no object but something that `dict()` reshapes. -/
structure Response.LacksData (response : Response) : Prop where
  status : response.status < 400
  body : ∃ parsed, response.body = .ok (.obj parsed) ∧ parsed.lookup "error" = none ∧
    ∀ data, parsed.lookup "data" = some data → data.dictLike = true

/-- When `_handle_response` returns, and what: the status is no failure, the body holds no `error`,
and its `data` makes a mapping. -/
theorem handleResponse_eq_ok {py : Builtins} {response : Response} {result : ProxyResult} :
    handleResponse py response = .ok result ↔
      ∃ parsed items, response.status < 400 ∧ response.body = .ok (.obj parsed) ∧
        parsed.lookup "error" = none ∧ dictOf (Fields.getD parsed "data" (.obj [])) = .ok items ∧
        result = ⟨items, response.idempotentReplay == some "1"⟩ := by
  constructor
  · intro h
    unfold handleResponse at h
    split at h
    · cases h
    · cases h
    · rename_i parsed hbody
      split at h
      · split at h <;> cases h
      · rename_i hfine
        rw [not_or, not_le, Option.isSome_iff_ne_none, not_not] at hfine
        split at h
        · rename_i items hitems
          exact ⟨parsed, items, hfine.1, hbody, hfine.2, hitems, (Except.ok.inj h).symm⟩
        · cases h
    · cases h
  · rintro ⟨parsed, items, hstatus, hbody, herror, hitems, rfl⟩
    have hfine : ¬(400 ≤ response.status ∨ (parsed.lookup "error").isSome = true) := by
      rw [not_or, herror]
      exact ⟨by omega, by simp⟩
    simp only [handleResponse, hbody, if_neg hfine, hitems]

/-- `call()` returns a success only, and with exactly its data, if and only if it is not given
a success whose data is absent or reshaped by `dict()`. -/
theorem call_returns_data_iff (py : Builtins) (transport : Except String Response) :
    (∀ result, call py transport = .ok result → ∃ response data, transport = .ok response ∧
      response.Carries data ∧
      result.items = data.map (fun field => (.str field.1, field.2))) ↔
      ∀ response, transport = .ok response → ¬response.LacksData := by
  constructor
  · rintro h response rfl ⟨hstatus, parsed, hbody, herror, hdata⟩
    obtain ⟨items, hitems⟩ : ∃ items, dictOf (Fields.getD parsed "data" (.obj [])) = .ok items := by
      rw [dictOf_eq_ok, Fields.getD]
      cases hlookup : parsed.lookup "data" with
      | none => exact .inl ⟨[], rfl⟩
      | some data => exact .inr (hdata data hlookup)
    have hreturns : call py (.ok response) =
        .ok ⟨items, response.idempotentReplay == some "1"⟩ :=
      handleResponse_eq_ok.mpr ⟨parsed, items, hstatus, hbody, herror, hitems, rfl⟩
    obtain ⟨response', data, hresponse, hcarries, -⟩ := h _ hreturns
    obtain rfl := Except.ok.inj hresponse
    obtain ⟨parsed', hbody', -, hlookup⟩ := hcarries.body
    obtain rfl := Response.parsed_unique hbody hbody'
    exact absurd (hdata _ hlookup) (by simp [Json.dictLike])
  · intro h result hresult
    cases transport with
    | error text => cases hresult
    | ok response =>
      obtain ⟨parsed, items, hstatus, hbody, herror, hitems, rfl⟩ :=
        handleResponse_eq_ok.mp hresult
      have hlacks := h response rfl
      have hnot : ¬∀ data, parsed.lookup "data" = some data → data.dictLike = true := fun hdata =>
        hlacks ⟨hstatus, parsed, hbody, herror, hdata⟩
      push Not at hnot
      obtain ⟨data, hlookup, hdata⟩ := hnot
      rw [Fields.getD, hlookup, Option.getD_some] at hitems
      rcases (dictOf_eq_ok data).mp ⟨items, hitems⟩ with ⟨fields, rfl⟩ | hlike
      · exact ⟨response, fields, rfl, ⟨hstatus, parsed, hbody, herror, hlookup⟩,
          (Except.ok.inj hitems).symm⟩
      · exact absurd hlike hdata

/-- The response `{}` to an order counts as an empty success, a list of pairs as a dict, and an
empty text as an empty dict. -/
theorem empty_body_succeeds :
    let py : Builtins := ⟨fun _ => "", fun _ => none⟩
    let answer (fields : Fields) : Except String Response :=
      .ok ⟨200, .ok (.obj fields), none, none⟩
    (call py (answer [])).toOption = some ⟨[], false⟩ ∧
      (call py (answer [("data", .arr [.arr [.str "txid", .int 1]])])).toOption =
        some ⟨[(.str "txid", .int 1)], false⟩ ∧
      (call py (answer [("data", .str "")])).toOption = some ⟨[], false⟩ := by
  decide

end ProxyClient
