import ProxyClient.Reporting

/-!
# Two copies of one classifier

`ReportingClient._handle_response` is `ProxyClient._handle_response` with the unwrapping of `data`
taken out. The two agree on every response but those that the Proxy's copy reads one header more
of: the reporting copy never looks at `Retry-After`.
-/

namespace ProxyClient

variable {py : Builtins} {response : Response} {parsed err : Fields}

/-- Two exceptions agree in all but the default text of the message. -/
structure ProxyError.Agrees (x y : ProxyError) : Prop where
  cls : x.cls = y.cls
  code : x.code = y.code
  message : x.message = y.message ∨
    (x.message = .str "the Proxy rejected the request" ∧
      y.message = .str "the reporting API rejected the request")
  detail : x.detail = y.detail
  requestId : x.requestId = y.requestId
  retryAfter : x.cls = .rateLimitedError → x.retryAfter = y.retryAfter

/-- Two typed exceptions that agree, or the same builtin one. -/
def Exc.Agrees : Exc → Exc → Prop
  | .proxy x, .proxy y => x.Agrees y
  | x, y => x = y

/-- A success whose `data` decides: `dict()` takes it, or raises. -/
def Response.RefusesData (response : Response) : Prop :=
  ∃ parsed e, response.body = .ok (.obj parsed) ∧ ¬response.Fails parsed ∧
    dictOf (Fields.getD parsed "data" (.obj [])) = .error e

/-- The two classifiers agree on a response. -/
structure Response.ClassifiedAlike (py : Builtins) (response : Response) : Prop where
  /-- Both raise, but where only the shape of `data` makes the first one raise. -/
  raises : (∃ x, handleResponse py response = .error x) ↔
    (∃ y, reportingHandleResponse response = .error y) ∨ response.RefusesData
  agrees : ∀ x y, handleResponse py response = .error x →
    reportingHandleResponse response = .error y → x.Agrees y

/-- A failure with the code `RATE_LIMITED` and a `Retry-After` header that can be read. -/
def Response.LosesRetryAfter (py : Builtins) (response : Response) : Prop :=
  ∃ parsed err, response.body = .ok (.obj parsed) ∧ response.Fails parsed ∧
    Fields.getD parsed "error" (.obj []) = .obj err ∧
    err.lookup "code" = some (.str "RATE_LIMITED") ∧
    (parseRetryAfter py response.retryAfter).isSome

/-- An exception agrees with itself. -/
theorem Exc.Agrees.refl (x : Exc) : x.Agrees x := by
  cases x with
  | proxy x => exact ⟨rfl, rfl, .inl rfl, rfl, rfl, fun _ => rfl⟩
  | _ => rfl

/-- Where both raise, agreement is that of the two exceptions. -/
theorem classifiedAlike_of_raises {x y : Exc} (hx : handleResponse py response = .error x)
    (hy : reportingHandleResponse response = .error y) :
    response.ClassifiedAlike py ↔ x.Agrees y := by
  constructor
  · intro h
    exact h.agrees x y hx hy
  · intro h
    refine ⟨⟨fun _ => .inl ⟨y, hy⟩, fun _ => ⟨x, hx⟩⟩, ?_⟩
    intro x' y' hx' hy'
    obtain rfl := Except.error.inj (hx.symm.trans hx')
    obtain rfl := Except.error.inj (hy.symm.trans hy')
    exact h

/-- Only a failure can lose the header. -/
theorem Response.LosesRetryAfter.fails (h : response.LosesRetryAfter py) :
    ∃ parsed, response.body = .ok (.obj parsed) ∧ response.Fails parsed := by
  obtain ⟨parsed, err, hbody, hfails, -⟩ := h
  exact ⟨parsed, hbody, hfails⟩

/-- The header of a failure is lost if and only if its code is `RATE_LIMITED`. -/
theorem losesRetryAfter_of_error (hbody : response.body = .ok (.obj parsed))
    (hfails : response.Fails parsed) (herror : Fields.getD parsed "error" (.obj []) = .obj err) :
    response.LosesRetryAfter py ↔ err.lookup "code" = some (.str "RATE_LIMITED") ∧
      (parseRetryAfter py response.retryAfter).isSome := by
  constructor
  · rintro ⟨parsed', err', hbody', -, herror', hlost⟩
    obtain rfl := Response.parsed_unique hbody hbody'
    obtain rfl := Json.obj.inj (herror.symm.trans herror')
    exact hlost
  · intro hlost
    exact ⟨parsed, err, hbody, hfails, herror, hlost⟩

/-- The class of rate limits is assigned to one code. -/
theorem ofCode_eq_rateLimited {code : Json} :
    ErrorClass.ofCode code = .rateLimitedError ↔ code = .str "RATE_LIMITED" := by
  constructor
  · intro h
    cases code with
    | str text =>
      have hcls : ErrorClass.byCode text = some .rateLimitedError := by
        unfold ErrorClass.ofCode at h
        cases hcls : ErrorClass.byCode text <;> simp_all
      rw [← ErrorClass.code_of_byCode hcls]
      rfl
    | _ => cases h
  · rintro rfl
    decide

/-- A failure without a code is not taken for a rate limit. -/
theorem code_eq_rateLimited (status : ℕ) :
    Fields.getD err "code" (.str s!"HTTP_{status}") = .str "RATE_LIMITED" ↔
      err.lookup "code" = some (.str "RATE_LIMITED") := by
  cases hcode : err.lookup "code" with
  | none =>
    simp only [Fields.getD, hcode, Option.getD_none, reduceCtorEq, iff_false, Json.str.injEq]
    intro h
    have hhead := congrArg (fun text => text.toList.head?) h
    simp [toString] at hhead
  | some code => simp [Fields.getD, hcode]

/-- Agreement on a failure with an error object. -/
theorem classifiedAlike_of_error (hbody : response.body = .ok (.obj parsed))
    (hfails : response.Fails parsed) (herror : Fields.getD parsed "error" (.obj []) = .obj err) :
    response.ClassifiedAlike py ↔ ¬response.LosesRetryAfter py := by
  rw [losesRetryAfter_of_error hbody hfails herror, ← code_eq_rateLimited response.status]
  have hx : handleResponse py response = .error (raiseFromResponse
      (Fields.getD err "code" (.str s!"HTTP_{response.status}"))
      (Fields.getD err "message" (.str "the Proxy rejected the request")) (Fields.get err "detail")
      (Fields.getD err "request_id" (.str "")) (parseRetryAfter py response.retryAfter)) := by
    simp only [handleResponse, hbody, herror]
    exact if_pos hfails
  have hy : reportingHandleResponse response = .error (raiseFromResponse
      (Fields.getD err "code" (.str s!"HTTP_{response.status}"))
      (Fields.getD err "message" (.str "the reporting API rejected the request"))
      (Fields.get err "detail") (Fields.getD err "request_id" (.str "")) none) := by
    simp only [reportingHandleResponse, hbody, herror]
    exact if_pos hfails
  rw [classifiedAlike_of_raises hx hy]
  generalize Fields.getD err "code" (.str s!"HTTP_{response.status}") = code
  cases hkey : code.key? with
  | none =>
    rw [raiseFromResponse_of_unhashable hkey, raiseFromResponse_of_unhashable hkey]
    refine ⟨?_, fun _ => .refl _⟩
    rintro - ⟨rfl, -⟩
    cases hkey
  | some key =>
    have hhash : code.key?.isSome := by rw [hkey]; rfl
    rw [raiseFromResponse_of_key hhash, raiseFromResponse_of_key hhash, ← ofCode_eq_rateLimited]
    constructor
    · rintro h ⟨hlimited, hheader⟩
      have hretry : parseRetryAfter py response.retryAfter = none := by
        simpa only [if_pos hlimited] using h.retryAfter hlimited
      rw [hretry] at hheader
      cases hheader
    · intro h
      refine ⟨rfl, rfl, ?_, rfl, rfl, ?_⟩
      · cases hmessage : err.lookup "message" with
        | none => exact .inr (by simp [Fields.getD, hmessage])
        | some message => exact .inl (by simp [Fields.getD, hmessage])
      · intro hlimited
        rw [if_pos hlimited, if_pos hlimited]
        simpa using fun hheader => h ⟨hlimited, hheader⟩

/-- Agreement on a success, which the reporting client returns as it is. -/
theorem classifiedAlike_of_success (hbody : response.body = .ok (.obj parsed))
    (hfine : ¬response.Fails parsed) : response.ClassifiedAlike py := by
  have hreturns : reportingHandleResponse response = .ok parsed := by
    simp only [reportingHandleResponse, hbody]
    exact if_neg hfine
  have refused {e : PyError} (hdata : dictOf (Fields.getD parsed "data" (.obj [])) = .error e) :
      handleResponse py response = .error (.py e) := by
    simp only [handleResponse, hbody, hdata]
    exact if_neg hfine
  have accepted {items : List (Json × Json)}
      (hdata : dictOf (Fields.getD parsed "data" (.obj [])) = .ok items) :
      handleResponse py response = .ok ⟨items, response.idempotentReplay == some "1"⟩ := by
    simp only [handleResponse, hbody, hdata]
    exact if_neg hfine
  refine ⟨⟨?_, ?_⟩, ?_⟩
  · rintro ⟨x, hraises⟩
    refine .inr ⟨parsed, ?_⟩
    cases hdata : dictOf (Fields.getD parsed "data" (.obj [])) with
    | ok items =>
      rw [accepted hdata] at hraises
      cases hraises
    | error e => exact ⟨e, hbody, hfine, rfl⟩
  · rintro (⟨y, hy⟩ | ⟨parsed', e, hbody', -, hdata⟩)
    · rw [hreturns] at hy
      cases hy
    · obtain rfl := Response.parsed_unique hbody hbody'
      exact ⟨.py e, refused hdata⟩
  · intro x y _ hy
    rw [hreturns] at hy
    cases hy

/-- The two classifiers agree on a response if and only if it is no failure with the code
`RATE_LIMITED` and a `Retry-After` header that can be read. -/
theorem classifiedAlike_iff (py : Builtins) (response : Response) :
    response.ClassifiedAlike py ↔ ¬response.LosesRetryAfter py := by
  have same (x : Exc) (hx : handleResponse py response = .error x)
      (hy : reportingHandleResponse response = .error x)
      (hkeeps : ¬response.LosesRetryAfter py) :
      response.ClassifiedAlike py ↔ ¬response.LosesRetryAfter py :=
    iff_of_true ((classifiedAlike_of_raises hx hy).mpr (.refl x)) hkeeps
  have noObject (h : ∀ parsed, response.body ≠ .ok (.obj parsed)) :
      ¬response.LosesRetryAfter py := by
    intro hlost
    obtain ⟨parsed, hparsed, -⟩ := hlost.fails
    exact h parsed hparsed
  cases hbody : response.body with
  | error e =>
    obtain ⟨x, hx, hy⟩ : ∃ x, handleResponse py response = .error x ∧
        reportingHandleResponse response = .error x := by
      unfold handleResponse reportingHandleResponse
      rw [hbody]
      cases e <;> exact ⟨_, rfl, rfl⟩
    exact same x hx hy (noObject (by simp [hbody]))
  | ok value =>
    have unexpected (hshape : ∀ fields, value ≠ .obj fields) :
        response.ClassifiedAlike py ↔ ¬response.LosesRetryAfter py := by
      have hkeeps := noObject (by simp [hbody, hshape])
      refine same (.proxy (.unreachable
        (s!"HTTP {response.status} with an unexpected JSON shape " ++
          s!"({value.typeName}, expected an object)"))) ?_ ?_ hkeeps
      · cases value with
        | obj fields => exact absurd rfl (hshape fields)
        | _ => simp only [handleResponse, hbody]
      · cases value with
        | obj fields => exact absurd rfl (hshape fields)
        | _ => simp only [reportingHandleResponse, hbody]
    cases value with
    | obj parsed =>
      by_cases hfails : response.Fails parsed
      · have hkeeps (herror : ∀ err, Fields.getD parsed "error" (.obj []) ≠ .obj err) :
            ¬response.LosesRetryAfter py := by
          rintro ⟨parsed', err, hbody', -, herror', -⟩
          obtain rfl := Response.parsed_unique hbody hbody'
          exact herror err herror'
        cases herror : Fields.getD parsed "error" (.obj []) with
        | obj err => exact classifiedAlike_of_error hbody hfails herror
        | _ =>
          refine same (.py .attributeError) ?_ ?_ (hkeeps (by simp [herror]))
          · simp only [handleResponse, hbody, herror]
            exact if_pos hfails
          · simp only [reportingHandleResponse, hbody, herror]
            exact if_pos hfails
      · apply iff_of_true (classifiedAlike_of_success hbody hfails)
        rintro ⟨parsed', err, hbody', hfails', -⟩
        obtain rfl := Response.parsed_unique hbody hbody'
        exact hfails hfails'
    | _ => exact unexpected (by simp)

/-- A rate limit with a `Retry-After` of five seconds, which the reporting client forgets. -/
theorem reporting_drops_retry_after :
    let py : Builtins := ⟨fun _ => "", fun text => if text = "5" then some 5 else none⟩
    let err : Fields := [("code", .str "RATE_LIMITED"), ("message", .str "slow down")]
    let response : Response := ⟨429, .ok (.obj [("error", .obj err)]), some "5", none⟩
    exceptionOf (handleResponse py response) = some (.proxy ⟨.rateLimitedError,
        .str "RATE_LIMITED", .str "slow down", .null, .str "", some 5⟩) ∧
      exceptionOf (reportingHandleResponse response) = some (.proxy ⟨.rateLimitedError,
        .str "RATE_LIMITED", .str "slow down", .null, .str "", none⟩) ∧
      ¬response.ClassifiedAlike py := by
  intro py err response
  have hx : handleResponse py response = .error (.proxy ⟨.rateLimitedError,
      .str "RATE_LIMITED", .str "slow down", .null, .str "", some 5⟩) := by rfl
  have hy : reportingHandleResponse response = .error (.proxy ⟨.rateLimitedError,
      .str "RATE_LIMITED", .str "slow down", .null, .str "", none⟩) := by rfl
  refine ⟨by rw [hx]; rfl, by rw [hy]; rfl, ?_⟩
  intro h
  have hretry := (h.agrees _ _ hx hy).retryAfter rfl
  cases hretry

end ProxyClient
