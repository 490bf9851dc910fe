import ProxyClient.Received
import ProxyClient.Reporting

/-!
# Orders and log queries

`orders.py` writes an order in the words of the venue, and `query_logs` collects its keyword
arguments to a payload. Both are read back from what the Proxy receives: the order as it was
placed, and exactly the filters that were set.
-/

namespace ProxyClient

open JsonText

/-- How a `post` of httpx fails: with a `RequestError`, or because a header has no encoding. -/
inductive PostError
  /-- With a `httpx.RequestError` of this text. -/
  | request (text : String)
  /-- With another exception: a header that is not ASCII is a `UnicodeEncodeError`, and nothing is
  sent. -/
  | other (exc : Exc)

/-- What a client does after its `post`: it catches a `httpx.RequestError` only. -/
def afterPost {α : Type} (handle : Except String Response → Except Exc α) :
    Except PostError Response → Except Exc α
  | .ok response => handle (.ok response)
  | .error (.request text) => handle (.error text)
  | .error (.other exc) => .error exc

variable {U : UpperCase} {mac : Bytes → Bytes → String} {py : Builtins} {account : Account}
  {stamp : Stamp} {post : Prepared → Except PostError Response}

/-- A string under a name of the Python code is found again as that string. -/
theorem Items.str_items (fields : List (String × PyValue)) (name : String) {s : PyStr}
    (h : fields.lookup name = some (.str s)) : Items.str (items fields) name = some s := by
  rw [Items.str, Items.get_items, h]

/-! ## Orders -/

/-- `NormalizedOrder`, the order that the builders of the venues start from. -/
structure NormalizedOrder where
  symbol : PyStr
  side : PyStr
  orderType : PyStr
  size : PyStr
  price : Option PyStr
  clientOrderId : Option PyStr

/-- `OkxOrderBuilder.place_order`: the payload of an order, with the optional fields that are
set. -/
def OkxOrderBuilder.placeOrder (order : NormalizedOrder) : Items :=
  items (
    [("instId", .str order.symbol), ("tdMode", .str (.ofString "cash")), ("side", .str order.side),
      ("ordType", .str order.orderType), ("sz", .str order.size)] ++
      order.price.toList.map (fun price => ("px", .str price)) ++
        order.clientOrderId.toList.map (fun id => ("clOrdId", .str id)))

/-- `OkxOrderBuilder.cancel_order`: the payload that names the order to cancel. -/
def OkxOrderBuilder.cancelOrder (orderId symbol : PyStr) : Items :=
  items [("instId", .str symbol), ("ordId", .str orderId)]

/-- `ProxyClient.call` and `acall`: the prepared request is posted, and its response handled. No
result stands for the errors of `_prepare`. -/
def callAction (U : UpperCase) (mac : Bytes → Bytes → String) (py : Builtins) (account : Account)
    (stamp : Stamp) (post : Prepared → Except PostError Response) (exchange action : PyStr)
    (payload : Items) (key : PyStr) : Option (Except Exc ProxyResult) :=
  (prepare U mac account stamp exchange action payload key).map (fun p =>
    afterPost (call py) (post p))

/-- `okx_place_order` and `okx_aplace_order`, which post alike. -/
def okxPlaceOrder (U : UpperCase) (mac : Bytes → Bytes → String) (py : Builtins)
    (account : Account) (stamp : Stamp) (post : Prepared → Except PostError Response)
    (order : NormalizedOrder) (key : PyStr) : Option (Except Exc ProxyResult) :=
  callAction U mac py account stamp post (.ofString "okx") (.ofString "place_order")
    (OkxOrderBuilder.placeOrder order) key

/-- `okx_cancel_order` and `okx_acancel_order`, which post alike. -/
def okxCancelOrder (U : UpperCase) (mac : Bytes → Bytes → String) (py : Builtins)
    (account : Account) (stamp : Stamp) (post : Prepared → Except PostError Response)
    (orderId symbol key : PyStr) : Option (Except Exc ProxyResult) :=
  callAction U mac py account stamp post (.ofString "okx") (.ofString "cancel_order")
    (OkxOrderBuilder.cancelOrder orderId symbol) key

/-- What a caller of `orders.py` asks for. -/
inductive OkxRequest
  | place (order : NormalizedOrder)
  | cancel (orderId symbol : PyStr)

namespace OkxRequest

/-- The request is made by its function. -/
def submit (U : UpperCase) (mac : Bytes → Bytes → String) (py : Builtins) (account : Account)
    (stamp : Stamp) (post : Prepared → Except PostError Response) (key : PyStr) :
    OkxRequest → Option (Except Exc ProxyResult)
  | place order => okxPlaceOrder U mac py account stamp post order key
  | cancel orderId symbol => okxCancelOrder U mac py account stamp post orderId symbol key

/-- The action under which the request is posted. -/
def action : OkxRequest → PyStr
  | place _ => .ofString "place_order"
  | cancel _ _ => .ofString "cancel_order"

/-- The payload that its builder makes. -/
def payload : OkxRequest → Items
  | place order => OkxOrderBuilder.placeOrder order
  | cancel orderId symbol => OkxOrderBuilder.cancelOrder orderId symbol

/-- The strings of the request survive the way through JSON. -/
def Legible : OkxRequest → Prop
  | place order =>
    order.symbol.Legible ∧ order.side.Legible ∧ order.orderType.Legible ∧ order.size.Legible ∧
      (∀ price ∈ order.price, PyStr.Legible price) ∧
        ∀ id ∈ order.clientOrderId, PyStr.Legible id
  | cancel orderId symbol => orderId.Legible ∧ symbol.Legible

/-- The order of a spot market that a venue finds in a payload. -/
def placed (payload : Items) : Option NormalizedOrder :=
  if Items.str payload "tdMode" = some (.ofString "cash") then
    (Items.str payload "instId").bind fun symbol => (Items.str payload "side").bind fun side =>
      (Items.str payload "ordType").bind fun orderType => (Items.str payload "sz").map fun size =>
        { symbol := symbol
          side := side
          orderType := orderType
          size := size
          price := Items.str payload "px"
          clientOrderId := Items.str payload "clOrdId" }
  else none

/-- The cancellation that a venue finds in a payload. -/
def cancelled (payload : Items) : Option OkxRequest :=
  (Items.str payload "ordId").bind fun orderId => (Items.str payload "instId").map fun symbol =>
    .cancel orderId symbol

/-- The request that is found in the fields of a body. -/
def read (fields : Items) : Option OkxRequest :=
  if Items.str fields "exchange" = some (.ofString "okx") then
    ((Items.get fields "payload").bind PyValue.items?).bind fun payload =>
      if Items.str fields "action" = some (.ofString "place_order") then
        (placed payload).map .place
      else if Items.str fields "action" = some (.ofString "cancel_order") then cancelled payload
      else none
  else none

/-- All the methods of the OKX client post through `call`, and differ in action and payload. -/
theorem submit_eq (o : OkxRequest) (key : PyStr) : o.submit U mac py account stamp post key =
    callAction U mac py account stamp post (.ofString "okx") o.action o.payload key := by
  cases o <;> rfl

/-- The actions of the OKX client are ASCII texts of the code. -/
theorem legible_action (o : OkxRequest) : o.action.Legible := by
  cases o <;> exact PyStr.legible_ofChars _

/-- The caller's strings are all that could keep a payload from being read back. -/
theorem Legible.readable {o : OkxRequest} (h : o.Legible) : Readable (.dict o.payload) := by
  cases o with
  | place order =>
    obtain ⟨hsymbol, hside, htype, hsize, hprice, hid⟩ := h
    apply readable_items
    · cases order.price <;> cases order.clientOrderId <;> simp
    · have hcash := (PyStr.legible_ofChars "cash".toList).readable
      have hprices : ∀ price ∈ order.price, Readable (.str price) :=
        fun price hp => (hprice price hp).readable
      have hids : ∀ id ∈ order.clientOrderId, Readable (.str id) := fun id h => (hid id h).readable
      simpa [hsymbol.readable, hside.readable, htype.readable, hsize.readable, or_imp, forall_and,
        PyStr.ofString, -Prod.forall] using ⟨hcash, hprices, hids⟩
  | cancel orderId symbol =>
    apply readable_items
    · simp
    · simp [h.1.readable, h.2.readable]

/-- The payloads hold no integers, so they can always be printed. -/
theorem printable_payload (o : OkxRequest) : printable (.dict o.payload) = true := by
  apply printable_dict
  cases o with
  | place order =>
    cases hprice : order.price <;> cases hid : order.clientOrderId <;>
      simp [payload, OkxOrderBuilder.placeOrder, items, hprice, hid]
  | cancel orderId symbol => simp [payload, OkxOrderBuilder.cancelOrder, items]

/-- The venue finds the order that was placed. -/
theorem placed_placeOrder (order : NormalizedOrder) :
    placed (OkxOrderBuilder.placeOrder order) = some order := by
  obtain ⟨symbol, side, orderType, size, price, clientOrderId⟩ := order
  cases price <;> cases clientOrderId <;>
    simp [placed, OkxOrderBuilder.placeOrder, Items.str, Items.get_items, List.lookup_cons]

/-- The venue finds the request that was made. -/
theorem read_fields (o : OkxRequest) (account : Account) (stamp : Stamp) (key : PyStr) :
    read (SdkRequest.call account stamp (.ofString "okx") o.action o.payload key).fields =
      some o := by
  have hexchange : Items.str (SdkRequest.call account stamp (.ofString "okx") o.action
      o.payload key).fields "exchange" = some (.ofString "okx") := Items.str_items _ _ rfl
  have haction : Items.str (SdkRequest.call account stamp (.ofString "okx") o.action
      o.payload key).fields "action" = some o.action := Items.str_items _ _ rfl
  have hpayload : Items.get (SdkRequest.call account stamp (.ofString "okx") o.action
      o.payload key).fields "payload" = some (.dict o.payload) := by
    rw [SdkRequest.fields, Items.get_items]
    rcases systemItem_cases account.systemName with hitem | ⟨_, -, -, hitem⟩ <;>
      simp [hitem, List.lookup_cons]
  rw [read, if_pos hexchange, hpayload, haction]
  cases o with
  | place order => simp [action, payload, PyValue.items?, placed_placeOrder]
  | cancel orderId symbol =>
    have hne : PyStr.ofString "cancel_order" ≠ PyStr.ofString "place_order" :=
      fun h => absurd (PyStr.ofString_inj h) (by decide)
    simp [action, payload, PyValue.items?, hne, cancelled, OkxOrderBuilder.cancelOrder, Items.str,
      Items.get_items, List.lookup_cons]

end OkxRequest

/-- An order or a cancellation is handed to httpx in one signed request from which the Proxy reads
back what the caller asked for, whatever the account, the time, the nonce and the idempotency key,
and its caller gets what the handling of the response gives, or what httpx raises beside it. The
strings of the account and of the order survive the way through JSON. -/
theorem okx_requests_received (U : UpperCase) (mac : Bytes → Bytes → String) (py : Builtins)
    {account : Account} (stamp : Stamp) (post : Prepared → Except PostError Response)
    {o : OkxRequest} (key : PyStr) (haccount : account.Legible) (ho : o.Legible) :
    ∃ (p : Prepared) (received : Received),
      o.submit U mac py account stamp post key = some (afterPost (call py) (post p)) ∧
      p.headers.lookup "X-Idempotency-Key" = (if key = [] then none else some key) ∧
      p.received = some received ∧
      received.Conveys U mac account.secret
        (.call account stamp (.ofString "okx") o.action o.payload key) ∧
      OkxRequest.read received.fields = some o := by
  obtain ⟨p, hp⟩ := exists_prepare (U := U) (PyStr.surrogateFree_ofChars "okx".toList) account
    stamp o.action o.printable_payload key
  obtain ⟨received, hreceived, hconveys⟩ := haccount.exists_received o.legible_action ho.readable hp
  refine ⟨p, received, ?_, idempotencyKey_of_prepare hp, hreceived, hconveys, ?_⟩
  · rw [OkxRequest.submit_eq, callAction, PyStr.ofString, hp, Option.map_some]
  · rw [hconveys.fields]
    exact OkxRequest.read_fields o account stamp key

/-- A limit order to place. -/
def NormalizedOrder.sample : NormalizedOrder where
  symbol := .ofString "BTC-USDT"
  side := .ofString "buy"
  orderType := .ofString "limit"
  size := .ofString "0.01"
  price := some (.ofString "50000.5")
  clientOrderId := none

/-- The order is read back from the request that httpx is given, also where it refuses the request
for the idempotency key "é". -/
theorem okx_requests_received_limit : ∃ (p : Prepared) (received : Received),
    okxPlaceOrder .asciiOnly sampleMac ⟨fun _ => "", fun _ => none⟩ .sample .sample
      (fun _ => .error (.other (.py .valueError))) .sample (.ofString "é") =
        some (.error (.py .valueError)) ∧
    p.headers.lookup "X-Idempotency-Key" = some (.ofString "é") ∧
    p.received = some received ∧ OkxRequest.read received.fields = some (.place .sample) := by
  have hlegible : (OkxRequest.place .sample).Legible :=
    ⟨PyStr.legible_ofChars _, PyStr.legible_ofChars _, PyStr.legible_ofChars _,
      PyStr.legible_ofChars _, fun price h => Option.some.inj h ▸ PyStr.legible_ofChars _,
      fun id h => by cases h⟩
  obtain ⟨p, received, hsubmit, hkey, hreceived, -, hread⟩ :=
    okx_requests_received .asciiOnly sampleMac ⟨fun _ => "", fun _ => none⟩ .sample
      (fun _ => .error (.other (.py .valueError))) (.ofString "é") Account.legible_sample hlegible
  exact ⟨p, received, hsubmit, hkey, hreceived, hread⟩

/-! ## Log queries -/

/-- `_LOG_FILTER_KEYS`, the filters that `query_logs` passes on. -/
inductive LogFilterKey
  | since
  | until'
  | operatorId
  | operatorName
  | exchange
  | action
  | responseStatus
  | errorCode
  | apiKeyId
  | sourceIp
  | requestId
  | limit
  | cursor
  deriving DecidableEq

namespace LogFilterKey

/-- The name of a filter in the query. -/
def name : LogFilterKey → String
  | since => "since"
  | until' => "until"
  | operatorId => "operator_id"
  | operatorName => "operator_name"
  | exchange => "exchange"
  | action => "action"
  | responseStatus => "response_status"
  | errorCode => "error_code"
  | apiKeyId => "api_key_id"
  | sourceIp => "source_ip"
  | requestId => "request_id"
  | limit => "limit"
  | cursor => "cursor"

/-- The keys in the order of the tuple. -/
def all : List LogFilterKey :=
  [since, until', operatorId, operatorName, exchange, action, responseStatus, errorCode, apiKeyId,
    sourceIp, requestId, limit, cursor]

/-- The list of the names names every filter. -/
theorem mem_all (key : LogFilterKey) : key ∈ all := by cases key <;> simp [all]

/-- No two filters have the same name, so a filter is set by one entry. -/
theorem nodup_names : (all.map name).Nodup := by simp [all, name]

/-- A name determines its filter. -/
theorem name_inj {key key' : LogFilterKey} (h : key.name = key'.name) : key = key' := by
  cases key <;> cases key' <;> first | rfl | simp [name] at h

end LogFilterKey

/-- An argument of `query_logs`: a string, a number or a date. -/
inductive LogFilter (D : Type)
  | str (s : PyStr)
  | int (n : ℤ)
  | datetime (d : D)

variable {D : Type} {isoformat : D → List Char}

/-- What a filter is sent as: a date as its ISO text, and other arguments as they are. -/
def LogFilter.value (isoformat : D → List Char) : LogFilter D → PyValue
  | str s => .str s
  | int n => .int n
  | datetime d => .str (.ofChars (isoformat d))

/-- The keyword arguments of `query_logs`, some of them `None`. -/
abbrev LogFilters (D : Type) := LogFilterKey → Option (LogFilter D)

/-- The items of the filters that are set. -/
def filterItems (isoformat : D → List Char) (kwargs : LogFilters D) : List (String × PyValue) :=
  LogFilterKey.all.filterMap fun key =>
    (kwargs key).map fun filter => (key.name, filter.value isoformat)

/-- `_log_filters_payload`: the filters that are set, in the order of the tuple. -/
def logFiltersPayload (isoformat : D → List Char) (kwargs : LogFilters D) : Items :=
  items (filterItems isoformat kwargs)

/-- `query_logs` and `aquery_logs`: the prepared request is posted, and its response handled. -/
def queryLogsWith (U : UpperCase) (mac : Bytes → Bytes → String) (account : Account)
    (stamp : Stamp) (post : Prepared → Except PostError Response) (isoformat : D → List Char)
    (kwargs : LogFilters D) : Option (Except Exc Json) :=
  (reportingPrepare U mac account stamp .logs (some (logFiltersPayload isoformat kwargs))).map
    fun p => afterPost queryLogs (post p)

/-- The filters survive the way through JSON. -/
structure LogFilters.Legible (kwargs : LogFilters D) : Prop where
  str : ∀ key s, kwargs key = some (.str s) → PyStr.Legible s
  int : ∀ key n, kwargs key = some (.int n) → printable (.int n) = true

/-- A table that is made from a partial function of its keys. -/
theorem lookup_filterMap {κ α : Type*} [DecidableEq κ] {name : κ → String}
    (hinj : Function.Injective name) (f : κ → Option α) (keys : List κ) (key : κ) :
    (keys.filterMap fun k => (f k).map fun v => (name k, v)).lookup (name key) =
      if key ∈ keys then f key else none := by
  induction keys with
  | nil => rfl
  | cons k keys ih =>
    cases hk : f k with
    | none =>
      rw [List.filterMap_cons_none (by simp [hk]), ih]
      by_cases heq : key = k
      · simp [heq, hk]
      · simp [heq]
    | some v =>
      rw [List.filterMap_cons_some (b := (name k, v)) (by simp [hk]), List.lookup_cons, ih]
      by_cases heq : key = k
      · simp [heq, hk]
      · have hne : (name key == name k) = false := by simpa using fun h => heq (hinj h)
        simp [heq, hne]

/-- The names of the entries are the names of the filters that are set, in the order of the list. -/
theorem map_fst_filterMap {κ α β : Type*} (name : κ → β) (f : κ → Option α) (keys : List κ) :
    (keys.filterMap fun k => (f k).map fun v => (name k, v)).map Prod.fst =
      (keys.filter fun k => (f k).isSome).map name := by
  induction keys with
  | nil => rfl
  | cons k keys ih => cases hk : f k <;> simp [hk, ih]

/-- So the payload has an entry for each filter that is set, and for no other. -/
theorem map_fst_filterItems (isoformat : D → List Char) (kwargs : LogFilters D) :
    (filterItems isoformat kwargs).map Prod.fst =
      (LogFilterKey.all.filter fun key => (kwargs key).isSome).map LogFilterKey.name := by
  have hmap := map_fst_filterMap LogFilterKey.name
    (fun key => (kwargs key).map (LogFilter.value isoformat)) LogFilterKey.all
  simpa [filterItems, Function.comp_def] using hmap

/-- The item of a key is the value of its filter. -/
theorem get_logFiltersPayload (isoformat : D → List Char) (kwargs : LogFilters D)
    (key : LogFilterKey) : Items.get (logFiltersPayload isoformat kwargs) key.name =
      (kwargs key).map (LogFilter.value isoformat) := by
  have hlookup := lookup_filterMap (fun _ _ h => LogFilterKey.name_inj h)
    (fun key => (kwargs key).map (LogFilter.value isoformat)) LogFilterKey.all key
  rw [if_pos key.mem_all] at hlookup
  rw [logFiltersPayload, Items.get_items, ← hlookup]
  simp [filterItems, Function.comp_def]

/-- A payload of legible filters reads back: the dates are ASCII texts, whatever they are. -/
theorem LogFilters.Legible.readable {kwargs : LogFilters D} (h : kwargs.Legible)
    (isoformat : D → List Char) : Readable (.dict (logFiltersPayload isoformat kwargs)) := by
  apply readable_items
  · rw [map_fst_filterItems]
    exact LogFilterKey.nodup_names.sublist (List.Sublist.map _ List.filter_sublist)
  · intro field hfield
    obtain ⟨key, -, hkey⟩ := List.mem_filterMap.mp hfield
    obtain ⟨filter, hfilter, rfl⟩ := Option.map_eq_some_iff.mp hkey
    cases filter with
    | str s => exact (h.str key s hfilter).readable
    | int n => simp [LogFilter.value, Readable]
    | datetime d => exact (PyStr.legible_ofChars _).readable

/-- And it can be printed, as the only integers in it are those of the caller. -/
theorem LogFilters.Legible.printable {kwargs : LogFilters D} (h : kwargs.Legible)
    (isoformat : D → List Char) :
    JsonText.printable (.dict (logFiltersPayload isoformat kwargs)) = true := by
  apply printable_dict
  intro field hfield
  obtain ⟨source, hsource, rfl⟩ := List.mem_map.mp hfield
  obtain ⟨key, -, hkey⟩ := List.mem_filterMap.mp hsource
  obtain ⟨filter, hfilter, rfl⟩ := Option.map_eq_some_iff.mp hkey
  cases filter with
  | str s => exact printable_str s
  | int n => exact h.int key n hfilter
  | datetime d => exact printable_str _

/-- A log query is posted to the endpoint of the logs in a request from which the Proxy reads back
the filters: there is an item for exactly the filters that are set, in the order of the table,
and each holds the value that was passed, a datetime in its ISO format. -/
theorem query_logs_received (U : UpperCase) (mac : Bytes → Bytes → String) {account : Account}
    (stamp : Stamp) (post : Prepared → Except PostError Response) (isoformat : D → List Char)
    {kwargs : LogFilters D} (haccount : account.Legible) (hkwargs : kwargs.Legible) :
    ∃ (p : Prepared) (received : Received) (payload : Items),
      queryLogsWith U mac account stamp post isoformat kwargs =
        some (afterPost queryLogs (post p)) ∧
      p.received = some received ∧
      received.Conveys U mac account.secret (.report account stamp .logs (some payload)) ∧
      Items.get received.fields "payload" = some (.dict payload) ∧
      (payload.map Prod.fst = (LogFilterKey.all.filter fun key => (kwargs key).isSome).map
        fun key => PyStr.ofString key.name) ∧
      ∀ key : LogFilterKey, Items.get payload key.name =
        (kwargs key).map (LogFilter.value isoformat) := by
  have hlegible : (SdkRequest.report account stamp .logs
      (some (logFiltersPayload isoformat kwargs))).Legible :=
    ⟨haccount, fun fields hfields => Option.some.inj hfields ▸ hkwargs.readable isoformat⟩
  obtain ⟨message, hmessage⟩ := SdkRequest.exists_message (U := U) (r := .report account stamp .logs
    (some (logFiltersPayload isoformat kwargs))) (PyStr.encode_ofChars Endpoint.logs.path.toList)
  have hsignature : computeSignature U mac account.secret (SdkRequest.report account stamp .logs
      (some (logFiltersPayload isoformat kwargs))).parts = some (mac account.secret message) := by
    rw [computeSignature, hmessage, Option.map_some]
  obtain ⟨received, hreceived, hconveys⟩ := received_of_signedHeaders hlegible rfl hsignature []
  rw [List.append_nil] at hreceived
  refine ⟨_, received, _, ?_, hreceived, hconveys, ?_, ?_, get_logFiltersPayload isoformat kwargs⟩
  · have hprintable : (some (logFiltersPayload isoformat kwargs)).all
        (fun fields => JsonText.printable (.dict fields)) = true := hkwargs.printable isoformat
    rw [queryLogsWith, reportingPrepare, if_pos hprintable, hsignature, Option.map_some,
      Option.map_some]
  · rw [hconveys.fields, SdkRequest.fields, Items.get_items]
    simp [List.lookup_cons]
  · have hkeys := congrArg (List.map PyStr.ofString) (map_fst_filterItems isoformat kwargs)
    simpa [logFiltersPayload, items, Function.comp_def] using hkeys

/-- Two filters, one of them a datetime that is written by its year. -/
def sampleFilters : LogFilters ℕ
  | .since => some (.datetime 2026)
  | .limit => some (.int 5)
  | _ => none

/-- The filters of the example satisfy the restrictions. -/
theorem legible_sampleFilters : sampleFilters.Legible where
  str key s h := by cases key <;> simp [sampleFilters] at h
  int key n h := by
    cases key <;>
      simp only [sampleFilters, Option.some.injEq, LogFilter.int.injEq, reduceCtorEq] at h
    subst h
    exact printable_int (by decide)

/-- Only the two filters are sent that the caller has set. -/
theorem query_logs_received_sample : ∃ (received : Received) (payload : Items),
    Items.get received.fields "payload" = some (.dict payload) ∧
    payload.map Prod.fst = [PyStr.ofString "since", PyStr.ofString "limit"] ∧
    Items.get payload "since" = some (.str (.ofChars (toString 2026).toList)) := by
  obtain ⟨-, received, payload, -, -, -, hpayload, hkeys, hvalues⟩ :=
    query_logs_received .asciiOnly sampleMac .sample (fun _ => .error (.request "refused"))
      (fun year : ℕ => (toString year).toList) Account.legible_sample legible_sampleFilters
  refine ⟨received, payload, hpayload, hkeys, hvalues .since⟩

end ProxyClient
