import ProxyClient.JsonRead
import ProxyClient.Signing
import Mathlib.Data.List.Nodup

/-!
# What the Proxy receives

The Proxy gets a path, headers and bytes, or a frame. It signs what it received once more and
parses the body. For a request of the SDK both give what the caller asked for: the signatures
agree, and the parsed body is the dict that was serialized. As the message of a signature ends
with that body, it determines the whole request, payload included.
-/

namespace ProxyClient

open JsonText

variable {U : UpperCase} {mac : Bytes → Bytes → String}

/-! ## Reading a body -/

/-- The character of a code point, if it is no surrogate. -/
def CodePoint.char? : CodePoint → Option Char
  | scalar c => some c
  | surrogate _ => none

/-- The characters of a string, if it holds no surrogate. -/
def PyStr.chars? (s : PyStr) : Option (List Char) := s.mapM CodePoint.char?

/-- `json.loads(body)` of a body in UTF-8, as the receiver reads it. -/
def loadsBytes (body : Bytes) : Option PyValue := (PyStr.decode body).chars?.bind loads

/-- `items.get(name)` for a name of the Python code. -/
def Items.get (fields : Items) (name : String) : Option PyValue :=
  fields.lookup (PyStr.ofString name)

/-- The value of a field that holds a string. -/
def Items.str (fields : Items) (name : String) : Option PyStr :=
  match Items.get fields name with
  | some (.str s) => some s
  | _ => none

/-- The items of a dict, if the value is one. -/
def PyValue.items? : PyValue → Option Items
  | .dict fields => some fields
  | _ => Option.none

/-- No high surrogate is in the string, so that it survives the way through JSON. -/
def PyStr.Legible (s : PyStr) : Prop := ∀ p ∈ s, p.isHigh = false

/-- A string without surrogates has in particular no high one. -/
theorem PyStr.SurrogateFree.legible {s : PyStr} (h : s.SurrogateFree) : s.Legible := by
  intro p hp
  cases p with
  | scalar c => rfl
  | surrogate n => cases h _ hp

/-- Texts of characters are legible, which holds of all the constants of the code. -/
theorem PyStr.legible_ofChars (text : List Char) : (PyStr.ofChars text).Legible :=
  (PyStr.surrogateFree_ofChars text).legible

/-- The characters of a Python string made of characters are those characters. -/
theorem PyStr.chars?_ofChars (text : List Char) : (PyStr.ofChars text).chars? = some text := by
  induction text with
  | nil => rfl
  | cons c text ih =>
    rw [PyStr.ofChars, List.map_cons, PyStr.chars?, List.mapM_cons]
    change (do let text ← (PyStr.ofChars text).chars?; pure (c :: text)) = some (c :: text)
    rw [ih]
    rfl

/-- The bytes of a text decode to that text. -/
theorem PyStr.decode_utf8 (text : List Char) : PyStr.decode (utf8 text) = PyStr.ofChars text := by
  obtain ⟨bs, hbs, hdecode⟩ := (PyStr.surrogateFree_ofChars text).decode_encode
  rw [PyStr.encode_ofChars] at hbs
  rwa [Option.some.inj hbs]

/-- Reading bytes that are the UTF-8 form of a text is reading the text. -/
theorem loadsBytes_utf8 (text : List Char) : loadsBytes (utf8 text) = loads text := by
  rw [loadsBytes, PyStr.decode_utf8, PyStr.chars?_ofChars, Option.bind_some]

/-- The names in the code are distinct as Python strings when they are distinct. -/
theorem PyStr.ofString_inj {s t : String} (h : PyStr.ofString s = PyStr.ofString t) : s = t :=
  String.toList_inj.mp (PyStr.ofChars_inj h)

/-- Legible is what it takes to be read back as a JSON string. -/
theorem PyStr.Legible.readable {s : PyStr} (h : s.Legible) : Readable (.str s) := by
  rw [Readable]
  exact h

/-- An object is readable when its keys are legible and its values readable. -/
theorem readableItems_of_forall {fields : Items}
    (h : ∀ field ∈ fields, field.1.Legible ∧ Readable field.2) : ReadableItems fields := by
  induction fields with
  | nil => simp [ReadableItems]
  | cons field fields ih =>
    obtain ⟨hkey, hvalue⟩ := h field (by simp)
    rw [ReadableItems]
    exact ⟨hkey, hvalue, ih (fun field hfield => h field (by simp [hfield]))⟩

/-- A dict with distinct literals for keys is readable if its values are. -/
theorem readable_items {fields : List (String × PyValue)} (hnodup : (fields.map Prod.fst).Nodup)
    (h : ∀ field ∈ fields, Readable field.2) : Readable (.dict (items fields)) := by
  have hkeys : (items fields).map Prod.fst = (fields.map Prod.fst).map PyStr.ofString := by
    simp [items, Function.comp_def]
  rw [Readable, hkeys]
  refine ⟨List.Nodup.map (fun _ _ heq => PyStr.ofString_inj heq) hnodup,
    readableItems_of_forall ?_⟩
  intro field hfield
  obtain ⟨source, hsource, rfl⟩ := List.mem_map.mp hfield
  exact ⟨PyStr.legible_ofChars _, h source hsource⟩

/-- A field of a dict whose keys are literals. -/
theorem Items.get_items (fields : List (String × PyValue)) (name : String) :
    Items.get (items fields) name = fields.lookup name := by
  induction fields with
  | nil => rfl
  | cons field fields ih =>
    have hkey : (PyStr.ofString name == PyStr.ofString field.1) = (name == field.1) := by
      rw [Bool.eq_iff_iff, beq_iff_eq, beq_iff_eq]
      exact ⟨PyStr.ofString_inj, congrArg PyStr.ofString⟩
    change List.lookup _ ((PyStr.ofString field.1, field.2) :: items fields) = _
    rw [List.lookup_cons, List.lookup_cons, hkey]
    cases name == field.1 with
    | true => rfl
    | false => exact ih

/-! ## The bodies of the SDK -/

/-- The dict that is serialized to the signed body. -/
def SdkRequest.fields : SdkRequest → Items
  | call account _ exchange action payload _ =>
    items (
      [("exchange", .str exchange), ("action", .str action),
        ("operator_id", .str account.operatorId), ("operator_name", .str account.operatorName)] ++
          systemItem account.systemName ++ [("payload", .dict payload)])
  | report account _ _ payload =>
    items (
      [("operator_id", .str account.operatorId), ("operator_name", .str account.operatorName)] ++
        payload.toList.map (fun payload => ("payload", .dict payload)))
  | handshake account stamp _ =>
    items (
      [("api_key", .str account.apiKey), ("timestamp", .str (.ofChars stamp.timestamp)),
        ("nonce", .str (.ofChars stamp.nonce)), ("operator_id", .str account.operatorId),
        ("operator_name", .str account.operatorName)] ++ systemItem account.systemName)

/-- The body that is signed and posted is the UTF-8 form of the printed fields. -/
theorem SdkRequest.body_eq (r : SdkRequest) : r.parts.body = utf8 (dumps (.dict r.fields)) := by
  cases r <;> rfl

/-- The strings of an account survive the way through JSON. -/
structure Account.Legible (account : Account) : Prop where
  apiKey : account.apiKey.Legible
  operatorId : account.operatorId.Legible
  operatorName : account.operatorName.Legible
  systemName : ∀ name ∈ account.systemName, PyStr.Legible name

/-- What the caller passes survives the way through JSON. A call whose exchange does not has no
path that could be sent. -/
def SdkRequest.Legible : SdkRequest → Prop
  | call account _ _ action payload _ =>
    account.Legible ∧ action.Legible ∧ JsonText.Readable (.dict payload)
  | report account _ _ payload =>
    account.Legible ∧ ∀ fields ∈ payload, JsonText.Readable (.dict fields)
  | handshake account _ _ => account.Legible

/-- The entry for the system is left out for a missing and for an empty name, and present
otherwise. -/
theorem systemItem_cases (systemName : Option PyStr) :
    systemItem systemName = [] ∨ ∃ name, systemName = some name ∧ name ≠ [] ∧
      systemItem systemName = [("system_name", .str name)] := by
  cases systemName with
  | none => exact .inl rfl
  | some name =>
    cases name with
    | nil => exact .inl rfl
    | cons p name => exact .inr ⟨p :: name, rfl, by simp, rfl⟩

/-- The system name of a legible account is readable, if it is in the request at all. -/
theorem Account.Legible.systemItem {account : Account} (h : account.Legible) :
    ∀ field ∈ ProxyClient.systemItem account.systemName, JsonText.Readable field.2 := by
  rcases systemItem_cases account.systemName with hnone | ⟨name, hname, -, hsome⟩
  · simp [hnone]
  · have hlegible : PyStr.Legible name := h.systemName name hname
    simpa [hsome] using hlegible.readable

/-- The dict of a request that can be signed is read back from its body. -/
theorem SdkRequest.Legible.loadsBytes_body {r : SdkRequest} {message : Bytes} (h : r.Legible)
    (hmessage : hmacInput U r.parts = some message) :
    loadsBytes r.parts.body = some (.dict r.fields) := by
  rw [body_eq, loadsBytes_utf8]
  apply loads_dumps
  cases r with
  | call account stamp exchange action payload key =>
    obtain ⟨haccount, haction, hpayload⟩ := h
    have hsystem := haccount.systemItem
    have hexchange : exchange.Legible := by
      obtain ⟨-, -, path, hpath, -⟩ := hmacInput_eq_some.mp hmessage
      obtain ⟨-, -, back, hback, -⟩ := PyStr.encode_append.mp hpath
      exact PyStr.isHigh_of_encode hback
    apply readable_items
    · rcases systemItem_cases account.systemName with hitem | ⟨_, -, -, hitem⟩ <;> simp [hitem]
    · simpa [haccount.operatorId.readable, haccount.operatorName.readable, hexchange.readable,
        haction.readable, hpayload, or_imp, forall_and, -Prod.forall] using hsystem
  | report account stamp endpoint payload =>
    obtain ⟨haccount, hpayload⟩ := h
    apply readable_items
    · cases payload <;> simp
    · cases payload with
      | none => simp [haccount.operatorId.readable, haccount.operatorName.readable]
      | some payload =>
        simp [haccount.operatorId.readable, haccount.operatorName.readable, hpayload payload rfl]
  | handshake account stamp exchange =>
    have hsystem := h.systemItem
    apply readable_items
    · rcases systemItem_cases account.systemName with hitem | ⟨_, -, -, hitem⟩ <;> simp [hitem]
    · simpa [h.apiKey.readable, h.operatorId.readable, h.operatorName.readable,
        (PyStr.legible_ofChars _).readable, or_imp, forall_and, -Prod.forall] using hsystem

/-! ## Received requests -/

/-- A request as the Proxy takes it apart. -/
structure Received where
  parts : SignedParts
  signature : PyStr
  fields : Items

/-- An HTTP request is taken apart into what the receiver can read of it. -/
def Prepared.received (p : Prepared) : Option Received :=
  (p.headers.lookup "X-Timestamp").bind fun timestamp =>
    (p.headers.lookup "X-Nonce").bind fun nonce =>
      (p.headers.lookup "X-Signature").bind fun signature =>
        ((loadsBytes p.body).bind PyValue.items?).map fun fields =>
          { parts := ⟨.ofString "POST", p.path, timestamp, nonce, p.body⟩
            signature := signature
            fields := fields }

/-- A handshake frame on the socket of a path is taken apart. -/
def receivedFrame (path : PyStr) (frame : List Char) : Option Received :=
  ((loads frame).bind PyValue.items?).bind fun outer =>
    (Items.str outer "signature").bind fun signature =>
      ((Items.str outer "body").bind PyStr.chars?).bind fun body =>
        ((loads body).bind PyValue.items?).bind fun inner =>
          (Items.str inner "timestamp").bind fun timestamp =>
            (Items.str inner "nonce").map fun nonce =>
              { parts := ⟨.ofString "WS", path, timestamp, nonce, utf8 body⟩
                signature := signature
                fields := inner }

/-- What was received is the request, and the signature made from what was received is the one
that came with it. -/
structure Received.Conveys (U : UpperCase) (mac : Bytes → Bytes → String) (secret : Bytes)
    (received : Received) (r : SdkRequest) : Prop where
  parts : received.parts = r.parts
  fields : received.fields = r.fields
  verified : (computeSignature U mac secret received.parts).map PyStr.ofString =
    some received.signature

/-- Where there is a signature there is a message that it signs. -/
theorem message_of_computeSignature {secret : Bytes} {parts : SignedParts} {signature : String}
    (h : computeSignature U mac secret parts = some signature) :
    ∃ message, hmacInput U parts = some message :=
  ⟨_, (Option.map_eq_some_iff.mp h).choose_spec.1⟩

/-- A prepared HTTP request conveys what its headers and its body were made from. -/
theorem received_of_signedHeaders {account : Account} {r : SdkRequest} {signature : String}
    (hlegible : r.Legible) (hmethod : r.parts.method = .ofString "POST")
    (h : computeSignature U mac account.secret r.parts = some signature)
    (more : List (String × PyStr)) :
    ∃ received, Prepared.received
        ⟨r.parts.path, r.parts.body, signedHeaders account r.parts signature ++ more⟩ =
          some received ∧ received.Conveys U mac account.secret r := by
  obtain ⟨message, hmessage⟩ := message_of_computeSignature h
  have hparts : (⟨.ofString "POST", r.parts.path, r.parts.timestamp, r.parts.nonce,
      r.parts.body⟩ : SignedParts) = r.parts := by
    rw [← hmethod]
  refine ⟨⟨r.parts, .ofString signature, r.fields⟩, ?_, rfl, rfl, by rw [h]; rfl⟩
  simp only [Prepared.received, hlegible.loadsBytes_body hmessage]
  simp [signedHeaders, hparts, PyValue.items?, List.lookup_cons]

/-- What `ProxyClient._prepare` returns, if the payload can be printed. -/
theorem prepare_eq_some {account : Account} {stamp : Stamp} {exchange action key : PyStr}
    {payload : Items} {p : Prepared}
    (h : prepare U mac account stamp exchange action payload key = some p) :
    ∃ signature, computeSignature U mac account.secret
        (SdkRequest.call account stamp exchange action payload key).parts = some signature ∧
      ⟨(SdkRequest.call account stamp exchange action payload key).parts.path,
        (SdkRequest.call account stamp exchange action payload key).parts.body,
        signedHeaders account (SdkRequest.call account stamp exchange action payload key).parts
          signature ++ if key = [] then [] else [("X-Idempotency-Key", key)]⟩ = p := by
  simp only [prepare] at h
  split at h
  · exact Option.map_eq_some_iff.mp h
  · cases h

/-- What `ReportingClient._prepare` returns, if the payload can be printed. -/
theorem reportingPrepare_eq_some {account : Account} {stamp : Stamp} {endpoint : Endpoint}
    {payload : Option Items} {p : Prepared}
    (h : reportingPrepare U mac account stamp endpoint payload = some p) :
    ∃ signature, computeSignature U mac account.secret
        (SdkRequest.report account stamp endpoint payload).parts = some signature ∧
      ⟨(SdkRequest.report account stamp endpoint payload).parts.path,
        (SdkRequest.report account stamp endpoint payload).parts.body,
        signedHeaders account (SdkRequest.report account stamp endpoint payload).parts
          signature⟩ = p := by
  simp only [reportingPrepare] at h
  split at h
  · exact Option.map_eq_some_iff.mp h
  · cases h

/-- The idempotency key of a prepared call is in its header if there is one. -/
theorem idempotencyKey_of_prepare {account : Account} {stamp : Stamp}
    {exchange action key : PyStr} {payload : Items} {p : Prepared}
    (h : prepare U mac account stamp exchange action payload key = some p) :
    p.headers.lookup "X-Idempotency-Key" = if key = [] then none else some key := by
  obtain ⟨signature, -, rfl⟩ := prepare_eq_some h
  by_cases hkey : key = [] <;> simp [signedHeaders, hkey, List.lookup_cons]

/-- A prepared call of a legible account is received with the fields that were given. -/
theorem Account.Legible.exists_received {account : Account} {stamp : Stamp}
    {exchange action key : PyStr} {payload : Items} {p : Prepared} (hlegible : account.Legible)
    (haction : action.Legible) (hpayload : JsonText.Readable (.dict payload))
    (h : prepare U mac account stamp exchange action payload key = some p) :
    ∃ received, p.received = some received ∧
      received.Conveys U mac account.secret (.call account stamp exchange action payload key) := by
  obtain ⟨signature, hsignature, rfl⟩ := prepare_eq_some h
  have hcall : (SdkRequest.call account stamp exchange action payload key).Legible :=
    ⟨hlegible, haction, hpayload⟩
  exact received_of_signedHeaders hcall rfl hsignature _

/-- The fields of a handshake frame, as `_build_auth_frame` writes them. -/
def authFields (account : Account) (stamp : Stamp) (signature : String) :
    List (String × PyValue) :=
  [("op", .str (.ofString "auth")), ("body", .str (.ofChars (handshakeBody account stamp))),
    ("signature", .str (.ofString signature))]

/-- The handshake frame contains texts of the account and of the code, and is read back. -/
theorem loads_authFields (account : Account) (stamp : Stamp) (signature : String) :
    loads (dumps (.dict (items (authFields account stamp signature)))) =
      some (.dict (items (authFields account stamp signature))) := by
  apply loads_dumps
  apply readable_items
  · simp [authFields]
  · simp [authFields, PyStr.ofString, (PyStr.legible_ofChars _).readable]

/-- A handshake frame conveys what it was made from. -/
theorem received_of_buildAuthFrame {account : Account} {stamp : Stamp} {exchange : PyStr}
    {frame : List Char} (hlegible : account.Legible)
    (h : buildAuthFrame U mac account stamp exchange = some frame) :
    ∃ received, receivedFrame (.ofString "/v1/" ++ exchange ++ .ofString "/ws") frame =
      some received ∧
        received.Conveys U mac account.secret (.handshake account stamp exchange) := by
  obtain ⟨signature, hsignature, rfl⟩ := Option.map_eq_some_iff.mp h
  obtain ⟨message, hmessage⟩ := message_of_computeSignature hsignature
  have hinner : loads (handshakeBody account stamp) =
      some (.dict (SdkRequest.handshake account stamp exchange).fields) := by
    have hbody := SdkRequest.Legible.loadsBytes_body (r := .handshake account stamp exchange)
      hlegible hmessage
    rwa [← loadsBytes_utf8]
  refine ⟨⟨(SdkRequest.handshake account stamp exchange).parts, .ofString signature,
    (SdkRequest.handshake account stamp exchange).fields⟩, ?_, rfl, rfl, by rw [hsignature]; rfl⟩
  change receivedFrame _ (dumps (.dict (items (authFields account stamp signature)))) = _
  have hsign : Items.str (items (authFields account stamp signature)) "signature" =
      some (.ofString signature) := by
    rw [Items.str, Items.get_items]
    rfl
  have hbody : Items.str (items (authFields account stamp signature)) "body" =
      some (.ofChars (handshakeBody account stamp)) := by
    rw [Items.str, Items.get_items]
    rfl
  have htimestamp : Items.str (SdkRequest.handshake account stamp exchange).fields "timestamp" =
      some (.ofChars stamp.timestamp) := by
    rw [SdkRequest.fields, Items.str, Items.get_items]
    rfl
  have hnonce : Items.str (SdkRequest.handshake account stamp exchange).fields "nonce" =
      some (.ofChars stamp.nonce) := by
    rw [SdkRequest.fields, Items.str, Items.get_items]
    rfl
  rw [receivedFrame, loads_authFields]
  simp only [Option.bind_some, PyValue.items?, hsign, hbody, PyStr.chars?_ofChars, hinner,
    htimestamp, hnonce, Option.map_some]
  rfl

/-- A signed request is read back from what the Proxy receives: over HTTP from the path, the
headers and the body, with the idempotency key in its header if there is one, and over a
WebSocket from the frame. The signature made from what was received is the one that came. -/
theorem signed_requests_read_back (U : UpperCase) (mac : Bytes → Bytes → String) :
    (∀ (account : Account) (stamp : Stamp) (exchange action : PyStr) (payload : Items)
        (key : PyStr) (p : Prepared), account.Legible → action.Legible →
      JsonText.Readable (.dict payload) →
      prepare U mac account stamp exchange action payload key = some p →
        p.headers.lookup "X-Idempotency-Key" = (if key = [] then none else some key) ∧
        ∃ received, p.received = some received ∧ received.Conveys U mac account.secret
          (.call account stamp exchange action payload key)) ∧
    (∀ (account : Account) (stamp : Stamp) (endpoint : Endpoint) (payload : Option Items)
        (p : Prepared), account.Legible → (∀ fields ∈ payload, JsonText.Readable (.dict fields)) →
      reportingPrepare U mac account stamp endpoint payload = some p →
        ∃ received, p.received = some received ∧ received.Conveys U mac account.secret
          (.report account stamp endpoint payload)) ∧
    (∀ (account : Account) (stamp : Stamp) (exchange : PyStr) (frame : List Char),
      account.Legible → buildAuthFrame U mac account stamp exchange = some frame →
        ∃ received, receivedFrame (.ofString "/v1/" ++ exchange ++ .ofString "/ws") frame =
          some received ∧
            received.Conveys U mac account.secret (.handshake account stamp exchange)) := by
  refine ⟨?_, ?_, fun account stamp exchange frame => received_of_buildAuthFrame⟩
  · intro account stamp exchange action payload key p haccount haction hpayload h
    exact ⟨idempotencyKey_of_prepare h, haccount.exists_received haction hpayload h⟩
  · intro account stamp endpoint payload p haccount hpayload h
    obtain ⟨signature, hsignature, rfl⟩ := reportingPrepare_eq_some h
    have hlegible : (SdkRequest.report account stamp endpoint payload).Legible :=
      ⟨haccount, hpayload⟩
    have hreceived := received_of_signedHeaders hlegible rfl hsignature []
    rwa [List.append_nil] at hreceived

/-- A request whose path can be encoded can be signed. -/
theorem SdkRequest.exists_message {r : SdkRequest} {path : Bytes}
    (h : r.parts.path.encode = some path) : ∃ message, hmacInput U r.parts = some message := by
  obtain ⟨m, hm⟩ := (r.oneLined.method.upper (U := U)).encode
  obtain ⟨t, ht⟩ := r.oneLined.timestamp.encode
  obtain ⟨n, hn⟩ := r.oneLined.nonce.encode
  exact ⟨_, hmacInput_eq_some.mpr ⟨m, hm, path, h, t, ht, n, hn, rfl⟩⟩

/-- A call to an exchange without surrogates can be signed. -/
theorem exists_message_call {exchange : PyStr} (h : exchange.SurrogateFree) (account : Account)
    (stamp : Stamp) (action : PyStr) (payload : Items) (key : PyStr) : ∃ message,
      hmacInput U (SdkRequest.call account stamp exchange action payload key).parts =
        some message := by
  obtain ⟨path, hpath, -⟩ := ((PyStr.surrogateFree_ofChars "/v1/".toList).append h).decode_encode
  exact SdkRequest.exists_message hpath

/-- A call to an exchange without surrogates, with integers that can be written, is prepared. -/
theorem exists_prepare {exchange : PyStr} (h : exchange.SurrogateFree) (account : Account)
    (stamp : Stamp) (action : PyStr) {payload : Items} (hpayload : printable (.dict payload) = true)
    (key : PyStr) : ∃ p, prepare U mac account stamp exchange action payload key = some p := by
  obtain ⟨message, hmessage⟩ := exists_message_call (U := U) h account stamp action payload key
  have hsignature : computeSignature U mac account.secret
      (SdkRequest.call account stamp exchange action payload key).parts =
        some (mac account.secret message) := by rw [computeSignature, hmessage, Option.map_some]
  exact ⟨_, by rw [prepare, if_pos hpayload, hsignature, Option.map_some]⟩

/-- The account of the example is legible. -/
theorem Account.legible_sample : Account.sample.Legible where
  apiKey := PyStr.legible_ofChars _
  operatorId := PyStr.legible_ofChars _
  operatorName := PyStr.legible_ofChars _
  systemName := by simp [Account.sample]

/-- A payload with a string and a list. -/
def samplePayload : Items :=
  items [("pair", .str (.ofString "BTC/USD")), ("levels", .list [.int (-5), .none])]

/-- The payload of the example is readable. -/
theorem readable_samplePayload : JsonText.Readable (.dict samplePayload) := by
  apply readable_items
  · simp
  · have hpair := (PyStr.legible_ofChars "BTC/USD".toList).readable
    simp [Readable, ReadableList] at hpair ⊢
    exact hpair

/-- The payload of the example is printable. -/
theorem printable_samplePayload : printable (.dict samplePayload) = true := by
  apply printable_dict
  intro field hfield
  rcases List.mem_cons.mp hfield with rfl | hfield
  · exact printable_str _
  · obtain rfl := List.mem_singleton.mp hfield
    have hlevel : printable (.int (-5)) = true := printable_int (by decide)
    simp [printable, printableList] at hlevel ⊢
    exact hlevel

/-- A MAC for examples, which is the length of the message. -/
def sampleMac (_ message : Bytes) : String := toString message.length

/-- A call with a payload and an idempotency key is read back. -/
theorem signed_requests_read_back_sample : ∃ (p : Prepared) (received : Received),
    prepare .asciiOnly sampleMac .sample .sample (.ofString "kraken") (.ofString "add_order")
      samplePayload (.ofString "k") = some p ∧
    p.headers.lookup "X-Idempotency-Key" = some (.ofString "k") ∧ p.received = some received ∧
    Items.get received.fields "payload" = some (.dict samplePayload) := by
  obtain ⟨p, hp⟩ := exists_prepare (U := .asciiOnly) (PyStr.surrogateFree_ofChars "kraken".toList)
    .sample .sample (.ofString "add_order") printable_samplePayload (.ofString "k")
  obtain ⟨hkey, received, hreceived, hconveys⟩ := (signed_requests_read_back _ _).1 _ _ _ _ _ _ p
    Account.legible_sample (PyStr.legible_ofChars _) readable_samplePayload hp
  refine ⟨p, received, hp, hkey, hreceived, ?_⟩
  rw [hconveys.fields, SdkRequest.fields, Items.get_items]
  rfl

/-! ## What a signature binds -/

/-- Two accounts look the same to a signature. The key that an HTTP request is made with is sent
in a header that is not signed. -/
structure Account.SameCaller (account account' : Account) : Prop where
  operatorId : account.operatorId = account'.operatorId
  operatorName : account.operatorName = account'.operatorName
  systemName : systemItem account.systemName = systemItem account'.systemName

/-- Two requests are the same up to what is not signed: the API key of an HTTP request and the
idempotency key of a call, which are sent in headers. -/
inductive SdkRequest.Alike : SdkRequest → SdkRequest → Prop
  | call {account account' : Account} {stamp : Stamp} {exchange action : PyStr} {payload : Items}
      {key key' : PyStr} (hcaller : account.SameCaller account') :
      Alike (.call account stamp exchange action payload key)
        (.call account' stamp exchange action payload key')
  | report {account account' : Account} {stamp : Stamp} {endpoint : Endpoint}
      {payload : Option Items} (hid : account.operatorId = account'.operatorId)
      (hname : account.operatorName = account'.operatorName) :
      Alike (.report account stamp endpoint payload) (.report account' stamp endpoint payload)
  | handshake {account account' : Account} {stamp : Stamp} {exchange : PyStr}
      (hcaller : account.SameCaller account') (hkey : account.apiKey = account'.apiKey) :
      Alike (.handshake account stamp exchange) (.handshake account' stamp exchange)

/-- Fields that are the same as Python values are the same in Lean. -/
theorem items_inj {fields fields' : List (String × PyValue)} (h : items fields = items fields') :
    fields = fields' := by
  refine List.map_injective_iff.mpr ?_ h
  intro field field' heq
  obtain ⟨hkey, hvalue⟩ := Prod.mk.inj heq
  exact Prod.ext (PyStr.ofString_inj hkey) hvalue

/-- A stamp is determined by the two texts that go into a request. -/
theorem Stamp.ext_parts {stamp stamp' : Stamp}
    (htime : PyStr.ofChars stamp.timestamp = PyStr.ofChars stamp'.timestamp)
    (hnonce : PyStr.ofChars stamp.nonce = PyStr.ofChars stamp'.nonce) : stamp = stamp' := by
  cases stamp
  cases stamp'
  obtain rfl := PyStr.ofChars_inj htime
  obtain rfl := PyStr.ofChars_inj hnonce
  rfl

/-- The item of a system client is told apart from what comes after it. -/
theorem systemItem_append_inj {systemName systemName' : Option PyStr} {v v' : PyValue}
    (h : systemItem systemName ++ [("payload", v)] = systemItem systemName' ++ [("payload", v')]) :
    systemItem systemName = systemItem systemName' ∧ v = v' := by
  obtain ⟨hsystem, hvalue⟩ := List.append_inj' h rfl
  exact ⟨hsystem, (Prod.mk.inj (List.head_eq_of_cons_eq hvalue)).2⟩

/-- The signature of a request binds all of it but the keys in its headers: two requests with one
signed message are the same kind of request by the same caller, at the same time and with the same
nonce, and agree in the exchange, the action, the endpoint and the payload. The strings of both
survive the way through JSON, and the exchange of a handshake is free of surrogates. -/
theorem message_binds_request (U : UpperCase) {r r' : SdkRequest} {message : Bytes}
    (hlegible : r.Legible) (hlegible' : r'.Legible) (hread : r.Readable) (hread' : r'.Readable)
    (h : hmacInput U r.parts = some message) (h' : hmacInput U r'.parts = some message) :
    r.Alike r' := by
  obtain ⟨hagree, path, hpath, hpath'⟩ := r.oneLined.inj r'.oneLined h h'
  have hsame := SdkRequest.path_eq hread hread' hagree hpath hpath'
  have hkind := SdkRequest.isHandshake_eq hagree.method
  have hfields : r.fields = r'.fields := by
    have hbody := hlegible.loadsBytes_body h
    rw [hagree.body, hlegible'.loadsBytes_body h'] at hbody
    exact (PyValue.dict.inj (Option.some.inj hbody)).symm
  cases r with
  | call account stamp exchange action payload key =>
    cases r' with
    | call account' stamp' exchange' action' payload' key' =>
      obtain rfl := Stamp.ext_parts hagree.timestamp hagree.nonce
      have hitems := items_inj hfields
      simp only [List.cons_append, List.nil_append, List.cons.injEq, Prod.mk.injEq, true_and,
        PyValue.str.injEq] at hitems
      obtain ⟨rfl, rfl, hid, hname, hrest⟩ := hitems
      obtain ⟨hsystem, hpayload⟩ := systemItem_append_inj hrest
      obtain rfl := PyValue.dict.inj hpayload
      exact .call ⟨hid, hname, hsystem⟩
    | report => exact absurd hagree.body buildBody_ne_reportingBody
    | handshake => cases hkind
  | report account stamp endpoint payload =>
    cases r' with
    | call => exact absurd hagree.body.symm buildBody_ne_reportingBody
    | report account' stamp' endpoint' payload' =>
      obtain rfl := Stamp.ext_parts hagree.timestamp hagree.nonce
      obtain rfl : endpoint = endpoint' := by
        have hpaths := PyStr.ofString_inj hsame
        cases endpoint <;> cases endpoint' <;> first | rfl | simp [Endpoint.path] at hpaths
      have hitems := items_inj hfields
      simp only [List.cons_append, List.nil_append, List.cons.injEq, Prod.mk.injEq, true_and,
        PyValue.str.injEq] at hitems
      obtain ⟨hid, hname, hpayload⟩ := hitems
      obtain rfl : payload = payload' := by
        cases payload <;> cases payload' <;> simp_all
      exact .report hid hname
    | handshake => cases hkind
  | handshake account stamp exchange =>
    cases r' with
    | call => cases hkind
    | report => cases hkind
    | handshake account' stamp' exchange' =>
      obtain rfl := Stamp.ext_parts hagree.timestamp hagree.nonce
      obtain rfl := List.append_cancel_left (List.append_cancel_right hsame)
      have hitems := items_inj hfields
      simp only [List.cons_append, List.nil_append, List.cons.injEq, Prod.mk.injEq, true_and,
        PyValue.str.injEq] at hitems
      obtain ⟨hkey, hid, hname, hsystem⟩ := hitems
      exact .handshake ⟨hid, hname, hsystem⟩ hkey

/-- The API key and the idempotency key of a call are not signed. -/
theorem SdkRequest.parts_call_unsigned (account : Account) (apiKey : PyStr) (stamp : Stamp)
    (exchange action : PyStr) (payload : Items) (key key' : PyStr) :
    (call { account with apiKey := apiKey } stamp exchange action payload key').parts =
      (call account stamp exchange action payload key).parts := rfl

/-- The theorem at two calls that differ in the API key and the idempotency key. -/
theorem message_binds_request_sample : ∃ (other : Account) (message : Bytes),
    other.apiKey ≠ Account.sample.apiKey ∧
    hmacInput .asciiOnly (SdkRequest.call other .sample (.ofString "kraken")
      (.ofString "add_order") samplePayload (.ofString "k")).parts = some message ∧
    (SdkRequest.call .sample .sample (.ofString "kraken") (.ofString "add_order")
      samplePayload []).Alike
      (.call other .sample (.ofString "kraken") (.ofString "add_order") samplePayload
        (.ofString "k")) := by
  obtain ⟨message, hmessage⟩ := exists_message_call (U := .asciiOnly)
    (PyStr.surrogateFree_ofChars "kraken".toList) .sample .sample (.ofString "add_order")
    samplePayload []
  have hlegible : (SdkRequest.call .sample .sample (.ofString "kraken") (.ofString "add_order")
      samplePayload []).Legible :=
    ⟨Account.legible_sample, PyStr.legible_ofChars _, readable_samplePayload⟩
  have hother : ({ Account.sample with apiKey := .ofString "cuq_op_2" } : Account).Legible :=
    { Account.legible_sample with apiKey := PyStr.legible_ofChars _ }
  have hmessage' := hmessage
  rw [← SdkRequest.parts_call_unsigned .sample (.ofString "cuq_op_2") _ _ _ _ _
    (.ofString "k")] at hmessage'
  exact ⟨{ Account.sample with apiKey := .ofString "cuq_op_2" }, message, by decide, hmessage',
    message_binds_request .asciiOnly hlegible ⟨hother, hlegible.2⟩ trivial trivial hmessage
      hmessage'⟩

/-! ## Operators and systems -/

/-- `ProxyClient(...)` and `ProxyClient.for_operator(...)`, or `none` for the
`UnicodeEncodeError` of the secret. -/
def Account.forOperator (apiKey secret operatorId operatorName : PyStr) : Option Account :=
  secret.chars?.map fun text =>
    { apiKey := apiKey
      secret := utf8 text
      operatorId := operatorId
      operatorName := operatorName
      systemName := none }

/-- `ProxyClient.for_system(...)`, or `none` also for the `ValueError`. -/
def Account.forSystem (apiKey secret operatorId operatorName systemName : PyStr) :
    Option Account :=
  if systemName = [] then none
  else (forOperator apiKey secret operatorId operatorName).map fun account =>
    { account with systemName := some systemName }

/-- The constructor of an operator's account adds no text that is not in its arguments, so a legible
one comes of legible texts. -/
theorem Account.legible_of_forSystem {apiKey secret operatorId operatorName systemName : PyStr}
    {account : Account} (hkey : apiKey.Legible) (hid : operatorId.Legible)
    (hname : operatorName.Legible) (hsystem : systemName.Legible)
    (h : Account.forSystem apiKey secret operatorId operatorName systemName = some account) :
    account.Legible := by
  rw [Account.forSystem] at h
  split_ifs at h with hempty
  obtain ⟨account', haccount', rfl⟩ := Option.map_eq_some_iff.mp h
  obtain ⟨text, -, rfl⟩ := Option.map_eq_some_iff.mp haccount'
  exact ⟨hkey, hid, hname, fun name heq => Option.some.inj heq ▸ hsystem⟩

/-- A client with the account sends what is received. -/
inductive Account.Sends (U : UpperCase) (mac : Bytes → Bytes → String) (account : Account) :
    Received → Prop
  | call {stamp : Stamp} {exchange action key : PyStr} {payload : Items} {p : Prepared}
      {received : Received} (haction : action.Legible)
      (hpayload : JsonText.Readable (.dict payload))
      (h : prepare U mac account stamp exchange action payload key = some p)
      (hreceived : p.received = some received) : Sends U mac account received
  | handshake {stamp : Stamp} {exchange : PyStr} {frame : List Char} {received : Received}
      (h : buildAuthFrame U mac account stamp exchange = some frame)
      (hreceived : receivedFrame (.ofString "/v1/" ++ exchange ++ .ofString "/ws") frame =
        some received) : Sends U mac account received

/-- The system name that is received is the one of the account. -/
theorem Account.Sends.systemName {account : Account} {received : Received}
    (h : account.Sends U mac received) (hlegible : account.Legible) :
    Items.get received.fields "system_name" =
      (systemItem account.systemName).lookup "system_name" := by
  cases h with
  | call haction hpayload h hreceived =>
    obtain ⟨received', hreceived', hconveys⟩ := hlegible.exists_received haction hpayload h
    obtain rfl := Option.some.inj (hreceived.symm.trans hreceived')
    rw [hconveys.fields, SdkRequest.fields, Items.get_items]
    rcases systemItem_cases account.systemName with hitem | ⟨_, -, -, hitem⟩ <;>
      simp [hitem, List.lookup_cons]
  | handshake h hreceived =>
    obtain ⟨received', hreceived', hconveys⟩ := received_of_buildAuthFrame hlegible h
    obtain rfl := Option.some.inj (hreceived.symm.trans hreceived')
    rw [hconveys.fields, SdkRequest.fields, Items.get_items]
    rcases systemItem_cases account.systemName with hitem | ⟨_, -, -, hitem⟩ <;>
      simp [hitem, List.lookup_cons]

/-- No request and no handshake of an operator client names a system, and every one of a system
client names its system. -/
theorem system_name_received {apiKey secret operatorId operatorName : PyStr} {account : Account}
    {received : Received} (hlegible : account.Legible) (h : account.Sends U mac received) :
    (Account.forOperator apiKey secret operatorId operatorName = some account →
      Items.get received.fields "system_name" = none) ∧
    ∀ systemName : PyStr,
      Account.forSystem apiKey secret operatorId operatorName systemName = some account →
        systemName ≠ [] ∧ Items.get received.fields "system_name" = some (.str systemName) := by
  rw [h.systemName hlegible]
  constructor
  · intro hoperator
    obtain ⟨text, -, rfl⟩ := Option.map_eq_some_iff.mp hoperator
    rfl
  · intro systemName hsystem
    rw [Account.forSystem] at hsystem
    split_ifs at hsystem with hempty
    obtain ⟨account', -, rfl⟩ := Option.map_eq_some_iff.mp hsystem
    obtain ⟨p, name, rfl⟩ := List.exists_cons_of_ne_nil hempty
    exact ⟨hempty, rfl⟩

/-- A bot sends an order, and the receiver reads the name of its system. -/
theorem system_name_received_bot : ∃ (account : Account) (received : Received),
    Account.forSystem (.ofString "cuq_sys_1") (.ofString "c2VjcmV0") (.ofString "cuq-014")
      (.ofString "J. Rivera") (.ofString "bot") = some account ∧
    account.Sends .asciiOnly sampleMac received ∧
    Items.get received.fields "system_name" = some (.str (.ofString "bot")) := by
  have hsecret : (PyStr.ofString "c2VjcmV0").chars? = some "c2VjcmV0".toList :=
    PyStr.chars?_ofChars _
  obtain ⟨account, haccount⟩ : ∃ account, Account.forSystem (.ofString "cuq_sys_1")
      (.ofString "c2VjcmV0") (.ofString "cuq-014") (.ofString "J. Rivera") (.ofString "bot") =
        some account :=
    ⟨_, by rw [Account.forSystem, if_neg (by decide), Account.forOperator, hsecret]; rfl⟩
  have hlegible : account.Legible := Account.legible_of_forSystem (PyStr.legible_ofChars _)
    (PyStr.legible_ofChars _) (PyStr.legible_ofChars _) (PyStr.legible_ofChars _) haccount
  obtain ⟨p, hp⟩ : ∃ p, prepare .asciiOnly sampleMac account .sample (.ofString "kraken")
      (.ofString "add_order") samplePayload [] = some p :=
    exists_prepare (PyStr.surrogateFree_ofChars _) _ _ _ printable_samplePayload _
  obtain ⟨received, hreceived, -⟩ := hlegible.exists_received (PyStr.legible_ofChars _)
    readable_samplePayload hp
  have hsends : account.Sends .asciiOnly sampleMac received :=
    .call (PyStr.legible_ofChars _) readable_samplePayload hp hreceived
  exact ⟨account, received, haccount, hsends,
    ((system_name_received hlegible hsends).2 _ haccount).2⟩

end ProxyClient
