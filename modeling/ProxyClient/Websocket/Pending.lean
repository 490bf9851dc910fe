import ProxyClient.Future
import ProxyClient.Errors
import Mathlib.Data.List.AList

/-!
# Request and response correlation

`_rpc.py`: the counter of request numbers and the map from a key to the future that
waits for it. Every future ever created stays in a heap, so that its identity is its
index there. All pings share one reserved key.
-/

namespace ProxyClient.Websocket

/-- What `json.loads` makes of an inbound text: a `JSONDecodeError`, another exception (a
`ValueError` on an integer literal over the digit limit, a `RecursionError`), or a value. -/
inductive Raw
  | undecodable (text : String)
  | unloadable
  | json (value : Json)
  deriving DecidableEq

/-- An inbound frame, together with the number of the call whose frame the server answers
with it. The code never sees that number. -/
structure Inbound where
  /-- The frame's text as `json.loads` reads it. -/
  raw : Raw
  /-- The call that the frame answers, if it answers any. -/
  answers : Option ℕ
  deriving DecidableEq

/-- The fields of a frame that is a JSON object. -/
def Inbound.fields (f : Inbound) : Fields :=
  match f.raw with
  | .json (.obj fields) => fields
  | _ => []

/-- `_PONG_KEY`, the one key under which every ping is registered, as a pong names none. -/
def pongKey : Key := .str "__pong__"

/-- `_PendingRequests`, with the heap of all futures it created. -/
structure PendingRequests where
  /-- `_counter`. -/
  counter : ℕ := 0
  /-- `_futures`. -/
  futures : AList (fun _ : Key => ℕ) := ∅
  /-- Every future, in the order of creation. -/
  heap : List (Future Inbound Exc) := []

namespace PendingRequests

/-- `next_id`: the numbers count up from one and are never used again. -/
def nextId (p : PendingRequests) : ℕ × PendingRequests :=
  (p.counter + 1, { p with counter := p.counter + 1 })

/-- `create`, and with `pongKey` for the key also `expect_pong`. -/
def create (p : PendingRequests) (key : Key) : ℕ × PendingRequests :=
  (p.heap.length,
    { p with futures := p.futures.insert key p.heap.length, heap := p.heap ++ [.pending] })

/-- `discard`: a key is given up, whatever its future. -/
def discard (p : PendingRequests) (key : Key) : PendingRequests :=
  { p with futures := p.futures.erase key }

/-- `discard_pong`: only the future that holds the slot is dropped from it. -/
def discardPong (p : PendingRequests) (fut : ℕ) : PendingRequests :=
  if p.futures.lookup pongKey = some fut then p.discard pongKey else p

/-- `_settle`: the future under a key is completed if it is still pending, and keeps its key until
its caller gives it up. -/
def settle (p : PendingRequests) (key : Key) (f : Inbound) : Bool × PendingRequests :=
  match p.futures.lookup key with
  | none => (false, p)
  | some i => (true, { p with heap := Future.complete p.heap i (.result f) })

/-- `resolve`: whether the frame was consumed. A key that cannot be hashed raises. -/
def resolve (p : PendingRequests) (f : Inbound) (key : Json) :
    Except PyError (Bool × PendingRequests) :=
  if Fields.get f.fields "event" = .str "pong" then .ok (p.settle pongKey f)
  else if key ≠ .null then
    match key.key? with
    | none => .error .typeError
    | some key => if key ∈ p.futures then .ok (p.settle key f) else .ok (false, p)
  else .ok (decide (Fields.get f.fields "event" = .str "error"), p)

/-- The futures in the map, those that a loss of the connection fails. -/
def waiting (p : PendingRequests) : List ℕ := p.futures.entries.map Sigma.snd

/-- `fail_all`: every future in the map fails with the exception, and the map is emptied. -/
def failAll (p : PendingRequests) (exc : Exc) : PendingRequests :=
  { p with futures := ∅, heap := Future.completeAll p.heap p.waiting (.exception exc) }

/-- `cancel_all`: every future in the map is cancelled, and the map is emptied. -/
def cancelAll (p : PendingRequests) : PendingRequests :=
  { p with futures := ∅, heap := Future.completeAll p.heap p.waiting .cancelled }

/-- A future is waiting exactly when some key leads to it. -/
theorem mem_waiting {p : PendingRequests} {i : ℕ} :
    i ∈ p.waiting ↔ ∃ key, p.futures.lookup key = some i := by
  simp only [waiting, List.mem_map]
  constructor
  · rintro ⟨⟨key, j⟩, hmem, rfl⟩
    exact ⟨key, AList.mem_lookup_iff.mpr hmem⟩
  · rintro ⟨key, hkey⟩
    exact ⟨⟨key, i⟩, AList.mem_lookup_iff.mp hkey, rfl⟩

end PendingRequests

end ProxyClient.Websocket
