import ProxyClient.Delimited
import ProxyClient.JsonText

/-!
# What a signature covers

`signing.py` joins the parts of a request by line feeds and signs the bytes of the result. The
Proxy recomputes them from what it received, so two requests with different parts must not
share a signed message. The parts before the path are read off the message from the front; a
path may hold anything, so for the requests of the SDK the parts after it are read off from the
back, where the body is one line of JSON.
-/

namespace ProxyClient

open Delimited

/-- The mapping of `str.upper()`. It is that of Unicode, of which this is what matters here. -/
structure UpperCase where
  /-- The upper case of a character. -/
  upper : Char → List Char
  ascii : ∀ c : Char, c.toNat < 128 → upper c = [c.toUpper]
  lineFeed : ∀ c : Char, '\n' ∈ upper c → c = '\n'

/-- The mapping that changes ASCII letters only. -/
def UpperCase.asciiOnly : UpperCase where
  upper c := [c.toUpper]
  ascii _ _ := rfl
  lineFeed c h := by
    have hfeed : c.toUpper = '\n' := (List.mem_singleton.mp h).symm
    unfold Char.toUpper at hfeed
    split at hfeed
    · rename_i hlower
      have hval := congrArg (fun d => d.val.toNat) hfeed
      have hge := UInt32.le_iff_toNat_le.mp hlower.1
      have hle := UInt32.le_iff_toNat_le.mp hlower.2
      simp at hval hge hle
      omega
    · exact hfeed

/-- The upper case of a code point. -/
def CodePoint.upper (U : UpperCase) : CodePoint → PyStr
  | scalar c => PyStr.ofChars (U.upper c)
  | surrogate n => [surrogate n]

/-- `s.upper()`, character by character as Unicode has it. -/
def PyStr.upper (U : UpperCase) (s : PyStr) : PyStr := s.flatMap (CodePoint.upper U)

/-- The parts of a request that are signed. -/
structure SignedParts where
  method : PyStr
  path : PyStr
  timestamp : PyStr
  nonce : PyStr
  body : Bytes

/-- `canonical_string`: the five parts of a request, joined by line feeds. -/
def canonicalString (U : UpperCase) (parts : SignedParts) : PyStr :=
  join .lineFeed [parts.method.upper U, parts.path, parts.timestamp, parts.nonce]
    (PyStr.decode parts.body)

/-- The message that `compute_signature` feeds to the HMAC, or `none` for the
`UnicodeEncodeError`. -/
def hmacInput (U : UpperCase) (parts : SignedParts) : Option Bytes :=
  (canonicalString U parts).encode

/-- `compute_signature`, where `mac` is the base64 text of the HMAC-SHA256 of a message. -/
def computeSignature (U : UpperCase) (mac : Bytes → Bytes → String) (secret : Bytes)
    (parts : SignedParts) : Option String :=
  (hmacInput U parts).map (mac secret)

/-! ## The signers -/

/-- The items of a dict, in the order of insertion. -/
abbrev Items := List (PyStr × PyValue)

/-- A dict whose keys are literals of the Python code. -/
def items (fields : List (String × PyValue)) : Items :=
  fields.map (fun field => (PyStr.ofString field.1, field.2))

/-- What a client signs with and for. -/
structure Account where
  apiKey : PyStr
  secret : Bytes
  operatorId : PyStr
  operatorName : PyStr
  systemName : Option PyStr

/-- The time and the nonce of a request: `str(int(time.time()))` and `uuid.uuid4().hex`. -/
structure Stamp where
  timestamp : List Char
  nonce : List Char
  digits : ∀ c ∈ timestamp, c.isDigit = true
  hex : ∀ c ∈ nonce, c.isDigit = true ∨ c.isLower = true

/-- `system_name` is sent by system clients only. -/
def systemItem (systemName : Option PyStr) : List (String × PyValue) :=
  match systemName with
  | some (p :: name) => [("system_name", .str (p :: name))]
  | _ => []

/-- `build_body`: the exchange, the action, the caller, and the payload under a key of its own. -/
def buildBody (exchange action operatorId operatorName : PyStr) (systemName : Option PyStr)
    (payload : Items) : Bytes :=
  utf8 (JsonText.dumps (.dict (items (
    [("exchange", .str exchange), ("action", .str action), ("operator_id", .str operatorId),
      ("operator_name", .str operatorName)] ++ systemItem systemName ++
        [("payload", .dict payload)]))))

/-- The keys of `_ENDPOINTS`, one for each query of the reporting client. -/
inductive Endpoint
  | unresolved
  | health
  | authFailures
  | logs

/-- `_ENDPOINTS`, the path under which the reporting service answers a query. -/
def Endpoint.path : Endpoint → String
  | unresolved => "/v1/admin/audit/unresolved"
  | health => "/v1/admin/audit/health"
  | authFailures => "/v1/admin/audit/auth-failures"
  | logs => "/v1/admin/audit/logs"

/-- `ReportingClient._body`: the operator, and the payload of a query that has one. -/
def reportingBody (account : Account) (payload : Option Items) : Bytes :=
  utf8 (JsonText.dumps (.dict (items (
    [("operator_id", .str account.operatorId), ("operator_name", .str account.operatorName)] ++
      payload.toList.map (fun payload => ("payload", .dict payload))))))

/-- The string that `_build_auth_frame` signs and sends as `body`. -/
def handshakeBody (account : Account) (stamp : Stamp) : List Char :=
  JsonText.dumps (.dict (items (
    [("api_key", .str account.apiKey), ("timestamp", .str (.ofChars stamp.timestamp)),
      ("nonce", .str (.ofChars stamp.nonce)), ("operator_id", .str account.operatorId),
      ("operator_name", .str account.operatorName)] ++ systemItem account.systemName)))

/-- A request that the SDK signs: a call, a query of a report, or a handshake. -/
inductive SdkRequest
  /-- By `ProxyClient._prepare`. -/
  | call (account : Account) (stamp : Stamp) (exchange action : PyStr) (payload : Items)
    (idempotencyKey : PyStr)
  /-- By `ReportingClient._prepare`. -/
  | report (account : Account) (stamp : Stamp) (endpoint : Endpoint) (payload : Option Items)
  /-- By `_build_auth_frame`. -/
  | handshake (account : Account) (stamp : Stamp) (exchange : PyStr)

/-- The parts of a request, as its signer passes them to `compute_signature`. The API key of an HTTP
request and the idempotency key of a call are not among them. -/
def SdkRequest.parts : SdkRequest → SignedParts
  | call account stamp exchange action payload _ =>
    { method := .ofString "POST"
      path := .ofString "/v1/" ++ exchange
      timestamp := .ofChars stamp.timestamp
      nonce := .ofChars stamp.nonce
      body := buildBody exchange action account.operatorId account.operatorName
        account.systemName payload }
  | report account stamp endpoint payload =>
    { method := .ofString "POST"
      path := .ofString endpoint.path
      timestamp := .ofChars stamp.timestamp
      nonce := .ofChars stamp.nonce
      body := reportingBody account payload }
  | handshake account stamp exchange =>
    { method := .ofString "WS"
      path := .ofString "/v1/" ++ exchange ++ .ofString "/ws"
      timestamp := .ofChars stamp.timestamp
      nonce := .ofChars stamp.nonce
      body := utf8 (handshakeBody account stamp) }

/-- A prepared HTTP request, as httpx is to post it. -/
structure Prepared where
  path : PyStr
  body : Bytes
  headers : List (String × PyStr)

/-- The headers that both HTTP clients send. -/
def signedHeaders (account : Account) (parts : SignedParts) (signature : String) :
    List (String × PyStr) :=
  [("X-Api-Key", account.apiKey), ("X-Timestamp", parts.timestamp), ("X-Nonce", parts.nonce),
    ("X-Signature", .ofString signature), ("Content-Type", .ofString "application/json")]

/-- `ProxyClient._prepare`, or `none` for the `ValueError` of `json.dumps` and the
`UnicodeEncodeError` of the signature. -/
def prepare (U : UpperCase) (mac : Bytes → Bytes → String) (account : Account) (stamp : Stamp)
    (exchange action : PyStr) (payload : Items) (idempotencyKey : PyStr) : Option Prepared :=
  let parts := (SdkRequest.call account stamp exchange action payload idempotencyKey).parts
  if JsonText.printable (.dict payload) then
    (computeSignature U mac account.secret parts).map (fun signature =>
      { path := parts.path
        body := parts.body
        headers := signedHeaders account parts signature ++
          if idempotencyKey = [] then [] else [("X-Idempotency-Key", idempotencyKey)] })
  else none

/-- `ReportingClient._prepare`, or `none` for the same errors. -/
def reportingPrepare (U : UpperCase) (mac : Bytes → Bytes → String) (account : Account)
    (stamp : Stamp) (endpoint : Endpoint) (payload : Option Items) : Option Prepared :=
  let parts := (SdkRequest.report account stamp endpoint payload).parts
  if payload.all (fun fields => JsonText.printable (.dict fields)) then
    (computeSignature U mac account.secret parts).map (fun signature =>
      { path := parts.path
        body := parts.body
        headers := signedHeaders account parts signature })
  else none

/-- `_build_auth_frame`: the first frame on a connection, signed like a request. -/
def buildAuthFrame (U : UpperCase) (mac : Bytes → Bytes → String) (account : Account)
    (stamp : Stamp) (exchange : PyStr) : Option (List Char) :=
  let parts := (SdkRequest.handshake account stamp exchange).parts
  (computeSignature U mac account.secret parts).map (fun signature =>
    JsonText.dumps (.dict (items
      [("op", .str (.ofString "auth")), ("body", .str (.ofChars (handshakeBody account stamp))),
        ("signature", .str (.ofString signature))])))

/-! ## The signed message -/

variable {U : UpperCase} {parts parts' : SignedParts} {message : Bytes}

/-- The signed message is the parts joined by line feeds, with the raw body at its end. -/
theorem hmacInput_eq_some : hmacInput U parts = some message ↔
    ∃ method, (parts.method.upper U).encode = some method ∧
      ∃ path, parts.path.encode = some path ∧
      ∃ timestamp, parts.timestamp.encode = some timestamp ∧
      ∃ nonce, parts.nonce.encode = some nonce ∧
      join 10 [method, path, timestamp, nonce] parts.body = message := by
  have hbody (back : Bytes) :
      (PyStr.decode parts.body).encode = some back ↔ parts.body = back := by
    rw [PyStr.encode_decode, Option.some.injEq]
  simp only [hmacInput, canonicalString, join_cons, join_nil, PyStr.encode_append_lineFeed, hbody]
  constructor
  · rintro ⟨m, hm, _, ⟨p, hp, _, ⟨t, ht, _, ⟨n, hn, _, rfl, rfl⟩, rfl⟩, rfl⟩, rfl⟩
    exact ⟨m, hm, p, hp, t, ht, n, hn, rfl⟩
  · rintro ⟨m, hm, p, hp, t, ht, n, hn, rfl⟩
    exact ⟨m, hm, _, ⟨p, hp, _, ⟨t, ht, _, ⟨n, hn, _, rfl, rfl⟩, rfl⟩, rfl⟩, rfl⟩

/-- A string without surrogates and line feeds. -/
structure PyStr.Plain (s : PyStr) : Prop where
  surrogateFree : s.SurrogateFree
  oneLine : .lineFeed ∉ s

/-- `upper()` makes neither a surrogate nor a line feed of other characters. -/
theorem PyStr.Plain.upper {s : PyStr} (h : s.Plain) : (s.upper U).Plain := by
  constructor
  · intro p hp
    obtain ⟨q, hq, hp⟩ := List.mem_flatMap.mp hp
    cases q with
    | scalar c => exact PyStr.surrogateFree_ofChars _ p hp
    | surrogate n => cases h.surrogateFree _ hq
  · intro hfeed
    obtain ⟨q, hq, hfeed⟩ := List.mem_flatMap.mp hfeed
    cases q with
    | scalar c =>
      obtain ⟨d, hd, heq⟩ := List.mem_map.mp hfeed
      have hupper : '\n' ∈ U.upper c := CodePoint.scalar.inj heq ▸ hd
      rw [U.lineFeed c hupper] at hq
      exact h.oneLine hq
    | surrogate n => cases h.surrogateFree _ hq

/-- A plain string has a UTF-8 form, since it has no surrogates. -/
theorem PyStr.Plain.encode {s : PyStr} (h : s.Plain) : ∃ bs, s.encode = some bs := by
  obtain ⟨bs, hbs, -⟩ := h.surrogateFree.decode_encode
  exact ⟨bs, hbs⟩

/-- No byte of a plain string is the line feed that joins the parts of the message. -/
theorem PyStr.Plain.lineFeed_not_mem {s : PyStr} {bs : Bytes} (h : s.Plain)
    (hbs : s.encode = some bs) : 10 ∉ bs :=
  fun hmem => h.oneLine (PyStr.lineFeed_mem_of_encode hbs hmem)

/-- Two plain strings with one UTF-8 form are the same string. -/
theorem PyStr.Plain.eq_of_encode {s t : PyStr} {bs : Bytes} (hs : s.Plain) (ht : t.Plain)
    (hbs : s.encode = some bs) (hbs' : t.encode = some bs) : s = t :=
  PyStr.encode_inj hs.surrogateFree ht.surrogateFree (hbs.trans hbs'.symm)

/-- The strings among the parts are plain. -/
structure SignedParts.Plain (parts : SignedParts) : Prop where
  method : parts.method.Plain
  path : parts.path.Plain
  timestamp : parts.timestamp.Plain
  nonce : parts.nonce.Plain

/-- Two requests agree in all parts but the path. -/
structure SignedParts.Agree (U : UpperCase) (parts parts' : SignedParts) : Prop where
  method : parts.method.upper U = parts'.method.upper U
  timestamp : parts.timestamp = parts'.timestamp
  nonce : parts.nonce = parts'.nonce
  body : parts.body = parts'.body

/-- Plain parts can be signed, and the signed message ends with the raw body. -/
theorem SignedParts.Plain.hmacInput (h : parts.Plain) :
    ∃ front, ProxyClient.hmacInput U parts = some (front ++ 10 :: parts.body) := by
  obtain ⟨m, hm⟩ := (h.method.upper (U := U)).encode
  obtain ⟨p, hp⟩ := h.path.encode
  obtain ⟨t, ht⟩ := h.timestamp.encode
  obtain ⟨n, hn⟩ := h.nonce.encode
  exact ⟨m ++ 10 :: p ++ 10 :: t ++ 10 :: n,
    hmacInput_eq_some.mpr ⟨m, hm, p, hp, t, ht, n, hn, by simp⟩⟩

/-- Plain parts are read off the message from the front. -/
theorem SignedParts.Plain.inj (h : parts.Plain) (h' : parts'.Plain)
    (heq : ProxyClient.hmacInput U parts = ProxyClient.hmacInput U parts') :
    parts.Agree U parts' ∧ parts.path = parts'.path := by
  obtain ⟨front, hfront⟩ := h.hmacInput (U := U)
  obtain ⟨m, hm, p, hp, t, ht, n, hn, hmessage⟩ := hmacInput_eq_some.mp hfront
  obtain ⟨m', hm', p', hp', t', ht', n', hn', hmessage'⟩ :=
    hmacInput_eq_some.mp (heq.symm.trans hfront)
  have hfields := h.method.upper.lineFeed_not_mem hm
  have hfields' := h'.method.upper.lineFeed_not_mem hm'
  obtain ⟨hsame, hbody⟩ := join_inj (by rfl)
    (by simp [hfields, h.path.lineFeed_not_mem hp, h.timestamp.lineFeed_not_mem ht,
      h.nonce.lineFeed_not_mem hn])
    (by simp [hfields', h'.path.lineFeed_not_mem hp', h'.timestamp.lineFeed_not_mem ht',
      h'.nonce.lineFeed_not_mem hn'])
    (hmessage.trans hmessage'.symm)
  simp only [List.cons.injEq, and_true] at hsame
  obtain ⟨rfl, rfl, rfl, rfl⟩ := hsame
  exact ⟨⟨h.method.upper.eq_of_encode h'.method.upper hm hm',
    h.timestamp.eq_of_encode h'.timestamp ht ht', h.nonce.eq_of_encode h'.nonce hn hn', hbody⟩,
    h.path.eq_of_encode h'.path hp hp'⟩

/-! ## The requests of the SDK -/

/-- The characters of a line make a plain string. -/
theorem PyStr.plain_ofChars {text : List Char} (h : '\n' ∉ text) : (PyStr.ofChars text).Plain := by
  refine ⟨PyStr.surrogateFree_ofChars text, ?_⟩
  intro hfeed
  obtain ⟨c, hc, heq⟩ := List.mem_map.mp hfeed
  exact h (CodePoint.scalar.inj heq ▸ hc)

/-- What `_prepare` and `_build_auth_frame` sign beside the path is one line each. -/
structure SignedParts.OneLined (parts : SignedParts) : Prop where
  method : parts.method.Plain
  timestamp : parts.timestamp.Plain
  nonce : parts.nonce.Plain
  body : 10 ∉ parts.body

/-- The parts of a request of the SDK each stay on one line, as `json.dumps` escapes line feeds. -/
theorem SdkRequest.oneLined (r : SdkRequest) : r.parts.OneLined := by
  have htime (stamp : Stamp) : (PyStr.ofChars stamp.timestamp).Plain := by
    apply PyStr.plain_ofChars
    intro h
    cases stamp.digits _ h
  have hnonce (stamp : Stamp) : (PyStr.ofChars stamp.nonce).Plain := by
    apply PyStr.plain_ofChars
    intro h
    rcases stamp.hex _ h with h | h <;> cases h
  have hbody (v : PyValue) : 10 ∉ utf8 (JsonText.dumps v) :=
    PyStr.lineFeed_not_mem_utf8 (JsonText.lineFeed_not_mem_dumps v)
  cases r with
  | call account stamp =>
    exact ⟨PyStr.plain_ofChars (by decide), htime stamp, hnonce stamp, hbody _⟩
  | report account stamp =>
    exact ⟨PyStr.plain_ofChars (by decide), htime stamp, hnonce stamp, hbody _⟩
  | handshake account stamp =>
    exact ⟨PyStr.plain_ofChars (by decide), htime stamp, hnonce stamp, hbody _⟩

/-- The parts after the path are read off the message from the back. -/
theorem SignedParts.OneLined.inj (h : parts.OneLined) (h' : parts'.OneLined)
    (hparts : hmacInput U parts = some message) (hparts' : hmacInput U parts' = some message) :
    parts.Agree U parts' ∧ ∃ path, parts.path.encode = some path ∧
      parts'.path.encode = some path := by
  obtain ⟨m, hm, p, hp, t, ht, n, hn, hmessage⟩ := hmacInput_eq_some.mp hparts
  obtain ⟨m', hm', p', hp', t', ht', n', hn', hmessage'⟩ := hmacInput_eq_some.mp hparts'
  have heq : m ++ 10 :: (p ++ 10 :: join 10 [t, n] parts.body) =
      m' ++ 10 :: (p' ++ 10 :: join 10 [t', n'] parts'.body) :=
    hmessage.trans hmessage'.symm
  obtain ⟨rfl, hrest⟩ := append_first_inj (h.method.upper.lineFeed_not_mem hm)
    (h'.method.upper.lineFeed_not_mem hm') heq
  obtain ⟨rfl, hsame, hbody⟩ := append_join_inj (by rfl)
    (by simp [h.timestamp.lineFeed_not_mem ht, h.nonce.lineFeed_not_mem hn])
    (by simp [h'.timestamp.lineFeed_not_mem ht', h'.nonce.lineFeed_not_mem hn'])
    h.body h'.body hrest
  simp only [List.cons.injEq, and_true] at hsame
  obtain ⟨rfl, rfl⟩ := hsame
  exact ⟨⟨h.method.upper.eq_of_encode h'.method.upper hm hm',
    h.timestamp.eq_of_encode h'.timestamp ht ht', h.nonce.eq_of_encode h'.nonce hn hn', hbody⟩,
    p, hp, hp'⟩

/-- A literal of the source in upper case is its own upper case. -/
theorem PyStr.upper_ofString {s : String}
    (h : s.toList.all (fun c => c.toNat < 128 && c.toUpper == c) = true) :
    (PyStr.ofString s).upper U = PyStr.ofString s := by
  have hchars (text : List Char) (h : ∀ c ∈ text, c.toNat < 128 ∧ c.toUpper = c) :
      (PyStr.ofChars text).upper U = PyStr.ofChars text := by
    induction text with
    | nil => rfl
    | cons c text ih =>
      obtain ⟨hascii, hupper⟩ := h c (by simp)
      have hc : U.upper c = [c] := by rw [U.ascii c hascii, hupper]
      have hcons : (PyStr.ofChars (c :: text)).upper U =
          PyStr.ofChars (U.upper c) ++ (PyStr.ofChars text).upper U := rfl
      rw [hcons, hc, ih (fun d hd => h d (List.mem_cons_of_mem c hd))]
      rfl
  exact hchars s.toList (by simpa using h)

/-- The request is a handshake, which is signed with the method `WS`. -/
def SdkRequest.isHandshake : SdkRequest → Bool
  | handshake _ _ _ => true
  | _ => false

/-- The exchange of a handshake holds no surrogate. -/
def SdkRequest.Readable : SdkRequest → Prop
  | handshake _ _ exchange => exchange.SurrogateFree
  | _ => True

/-- The methods tell handshakes and HTTP requests apart. -/
theorem SdkRequest.isHandshake_eq {r r' : SdkRequest}
    (h : r.parts.method.upper U = r'.parts.method.upper U) : r.isHandshake = r'.isHandshake := by
  have hpost : (PyStr.ofString "POST").upper U = PyStr.ofString "POST" :=
    PyStr.upper_ofString (by decide)
  have hws : (PyStr.ofString "WS").upper U = PyStr.ofString "WS" :=
    PyStr.upper_ofString (by decide)
  have hne : PyStr.ofString "POST" ≠ PyStr.ofString "WS" := by decide
  cases r <;> cases r' <;> first | rfl | skip
  all_goals
    simp only [SdkRequest.parts, hpost, hws] at h
    first | exact absurd h hne | exact absurd h.symm hne

/-- A dict whose first value is a string. -/
theorem JsonText.dumps_dict_str (k e : PyStr) (items : Items) :
    JsonText.dumps (.dict ((k, .str e) :: items)) = '{' :: (JsonText.quote k ++
      (": ".toList ++ (JsonText.quote e ++ (JsonText.dumpsItems items ++ ['}'])))) := by
  simp [JsonText.dumps]

/-- The body of a call tells its exchange. -/
theorem exchange_of_buildBody {exchange exchange' action action' operator operator' name name' :
    PyStr} {system system' : Option PyStr} {payload payload' : Items}
    (hlow : ∀ p ∈ exchange, p.isHigh = false) (hlow' : ∀ p ∈ exchange', p.isHigh = false)
    (h : buildBody exchange action operator name system payload =
      buildBody exchange' action' operator' name' system' payload') : exchange = exchange' := by
  have hdumps := PyStr.utf8_inj h
  simp only [items, List.map_cons, List.cons_append, JsonText.dumps_dict_str, List.cons.injEq,
    true_and] at hdumps
  exact (JsonText.quote_inj hlow hlow'
    (List.append_cancel_left (List.append_cancel_left hdumps))).1

/-- The body of a call is not that of a report. -/
theorem buildBody_ne_reportingBody {exchange action operator name : PyStr} {system : Option PyStr}
    {payload : Items} {account : Account} {payload' : Option Items} :
    buildBody exchange action operator name system payload ≠ reportingBody account payload' := by
  intro h
  have hdumps := PyStr.utf8_inj h
  simp only [items, List.map_cons, List.cons_append, JsonText.dumps_dict_str, List.cons.injEq,
    true_and] at hdumps
  have hkeys := (JsonText.quote_inj (by decide) (by decide) hdumps).1
  exact absurd hkeys (by decide)

/-- The bytes of the path and the rest of a signed request tell its path. -/
theorem SdkRequest.path_eq {r r' : SdkRequest} {path : Bytes} (hread : r.Readable)
    (hread' : r'.Readable) (hagree : r.parts.Agree U r'.parts)
    (hpath : r.parts.path.encode = some path) (hpath' : r'.parts.path.encode = some path) :
    r.parts.path = r'.parts.path := by
  have hkind := isHandshake_eq hagree.method
  cases r with
  | call account stamp exchange action payload key =>
    cases r' with
    | call account' stamp' exchange' action' payload' key' =>
      have low {exchange : PyStr} (h : (PyStr.ofString "/v1/" ++ exchange).encode = some path) :
          ∀ p ∈ exchange, p.isHigh = false := by
        obtain ⟨-, -, back, hexchange, -⟩ := PyStr.encode_append.mp h
        exact PyStr.isHigh_of_encode hexchange
      obtain rfl := exchange_of_buildBody (low hpath) (low hpath') hagree.body
      rfl
    | report account' stamp' endpoint payload' =>
      exact absurd hagree.body buildBody_ne_reportingBody
    | handshake => cases hkind
  | report account stamp endpoint payload =>
    cases r' with
    | call account' stamp' exchange' action' payload' key' =>
      exact absurd hagree.body.symm buildBody_ne_reportingBody
    | report account' stamp' endpoint' payload' =>
      exact PyStr.encode_inj (PyStr.surrogateFree_ofChars _) (PyStr.surrogateFree_ofChars _)
        (hpath.trans hpath'.symm)
    | handshake => cases hkind
  | handshake account stamp exchange =>
    cases r' with
    | call => cases hkind
    | report => cases hkind
    | handshake account' stamp' exchange' =>
      have free {exchange : PyStr} (h : exchange.SurrogateFree) :
          (PyStr.ofString "/v1/" ++ exchange ++ .ofString "/ws").SurrogateFree :=
        ((PyStr.surrogateFree_ofChars _).append h).append (PyStr.surrogateFree_ofChars _)
      exact PyStr.encode_inj (free hread) (free hread') (hpath.trans hpath'.symm)

/-- The signed message binds every part. It ends with the raw body, it determines all parts that
are plain, and for the requests of the SDK it determines the kind of the request and all parts,
the path of a handshake up to its bytes. -/
theorem canonical_string_binds (U : UpperCase) :
    (∀ parts : SignedParts, parts.Plain →
      ∃ front, hmacInput U parts = some (front ++ 10 :: parts.body)) ∧
    (∀ parts parts' : SignedParts, parts.Plain → parts'.Plain →
      hmacInput U parts = hmacInput U parts' → parts.Agree U parts' ∧ parts.path = parts'.path) ∧
    (∀ (r r' : SdkRequest) (message : Bytes), hmacInput U r.parts = some message →
      hmacInput U r'.parts = some message →
        r.isHandshake = r'.isHandshake ∧ r.parts.Agree U r'.parts ∧
          r.parts.path.encode = r'.parts.path.encode ∧
          (r.Readable → r'.Readable → r.parts.path = r'.parts.path)) := by
  refine ⟨fun parts h => h.hmacInput, fun parts parts' h h' heq => h.inj h' heq, ?_⟩
  intro r r' message hr hr'
  obtain ⟨hagree, path, hpath, hpath'⟩ := r.oneLined.inj r'.oneLined hr hr'
  exact ⟨SdkRequest.isHandshake_eq hagree.method, hagree, hpath.trans hpath'.symm,
    fun hread hread' => SdkRequest.path_eq hread hread' hagree hpath hpath'⟩

/-- An operator to sign for, who belongs to no system. -/
def Account.sample : Account where
  apiKey := .ofString "cuq_op_1"
  secret := [1, 2, 3]
  operatorId := .ofString "cuq-014"
  operatorName := .ofString "J. Rivera"
  systemName := none

/-- The time and nonce of a request. -/
def Stamp.sample : Stamp where
  timestamp := "1735939200".toList
  nonce := "0f1e2d3c".toList
  digits := List.all_eq_true.mp (by decide)
  hex := by
    have h : "0f1e2d3c".toList.all (fun c => c.isDigit || c.isLower) = true := by decide
    simpa only [List.all_eq_true, Bool.or_eq_true] using h

/-- Two exchanges of the same bytes share the signed message of a handshake. -/
theorem handshake_message {exchange exchange' : PyStr} {bs : Bytes}
    (h : exchange.encode = some bs) (h' : exchange'.encode = some bs) (account : Account)
    (stamp : Stamp) : ∃ message,
      hmacInput U (SdkRequest.handshake account stamp exchange).parts = some message ∧
        hmacInput U (SdkRequest.handshake account stamp exchange').parts = some message := by
  have hlines := (SdkRequest.handshake account stamp exchange).oneLined
  obtain ⟨m, hm⟩ := (hlines.method.upper (U := U)).encode
  obtain ⟨t, ht⟩ := hlines.timestamp.encode
  obtain ⟨n, hn⟩ := hlines.nonce.encode
  have hpath {e : PyStr} (he : e.encode = some bs) :
      (SdkRequest.handshake account stamp e).parts.path.encode =
        some (utf8 "/v1/".toList ++ bs ++ utf8 "/ws".toList) := by
    refine PyStr.encode_append.mpr ⟨_, PyStr.encode_append.mpr ⟨_, ?_, _, he, rfl⟩, _, ?_, rfl⟩
    · exact PyStr.encode_ofChars _
    · exact PyStr.encode_ofChars _
  refine ⟨join 10 [m, utf8 "/v1/".toList ++ bs ++ utf8 "/ws".toList, t, n]
    (SdkRequest.handshake account stamp exchange).parts.body, ?_, ?_⟩
  · exact hmacInput_eq_some.mpr ⟨m, hm, _, hpath h, t, ht, n, hn, rfl⟩
  · exact hmacInput_eq_some.mpr ⟨m, hm, _, hpath h', t, ht, n, hn, rfl⟩

/-- The exchange "é" and its bytes as surrogates give one signed message. -/
theorem exchanges_share_message : ∃ (exchange exchange' : PyStr) (message : Bytes),
    exchange = [.scalar 'é'] ∧ exchange' = [CodePoint.escape 0xC3, CodePoint.escape 0xA9] ∧
    hmacInput .asciiOnly (SdkRequest.handshake .sample .sample exchange).parts = some message ∧
    hmacInput .asciiOnly (SdkRequest.handshake .sample .sample exchange').parts = some message ∧
    (SdkRequest.handshake .sample .sample exchange).parts.path ≠
      (SdkRequest.handshake .sample .sample exchange').parts.path := by
  have hletter : PyStr.encode [.scalar 'é'] = some [0xC3, 0xA9] := by decide
  have hescaped : PyStr.encode [CodePoint.escape 0xC3, CodePoint.escape 0xA9] =
      some [0xC3, 0xA9] := by decide
  obtain ⟨message, h, h'⟩ := handshake_message (U := .asciiOnly) hletter hescaped .sample .sample
  refine ⟨_, _, message, rfl, rfl, h, h', ?_⟩
  decide

/-- The theorem at a call whose exchange holds a line feed. -/
theorem canonical_string_binds_sample : ∃ message : Bytes,
    hmacInput .asciiOnly (SdkRequest.call .sample .sample (.ofString "okx\nWS") (.ofString "ping")
      [] []).parts = some message ∧
    ∀ r : SdkRequest, hmacInput .asciiOnly r.parts = some message → r.isHandshake = false := by
  have hlines := (SdkRequest.call .sample .sample (.ofString "okx\nWS") (.ofString "ping")
    [] []).oneLined
  obtain ⟨m, hm⟩ := (hlines.method.upper (U := .asciiOnly)).encode
  obtain ⟨t, ht⟩ := hlines.timestamp.encode
  obtain ⟨n, hn⟩ := hlines.nonce.encode
  have hmessage := hmacInput_eq_some.mpr
    ⟨m, hm, _, PyStr.encode_ofChars ("/v1/".toList ++ "okx\nWS".toList), t, ht, n, hn, rfl⟩
  refine ⟨_, hmessage, ?_⟩
  intro r hr
  exact ((canonical_string_binds .asciiOnly).2.2 _ r _ hmessage hr).1.symm

end ProxyClient
