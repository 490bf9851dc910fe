import ProxyClient.Websocket.Dialect
import ProxyClient.Websocket.Connection

/-!
# The subscription registry

`subscribe()` and `unsubscribe()` record acknowledged subscriptions as pairs of a channel
and the params without their channel, compared by Python's `==`. The registry is replayed
in order after a reconnect.
-/

namespace ProxyClient.Websocket

/-- The params that `subscribe()` and `unsubscribe()` pass to `request()`. -/
def channelParams (channel : String) (params : Option Params) : Params :=
  (params.getD .empty).withChannel channel

/-- The registry entry of a call: `(channel, clean)`. -/
def entryOf (channel : String) (params : Option Params) : Entry :=
  (channel, (channelParams channel params).withoutChannel)

/-- `==` on entries, by which `subscribe()` and `unsubscribe()` look for one. -/
def Entry.same (a b : Entry) : Bool := a.1 == b.1 && Json.pyEqFields a.2.fields b.2.fields

/-- The registry after an acknowledged `subscribe()` with `persist=True`. -/
def recordEntry (registry : List Entry) (entry : Entry) : List Entry :=
  if registry.any (fun e => Entry.same e entry) then registry else registry ++ [entry]

/-- The registry after an acknowledged `unsubscribe()`: `list.remove` drops the first equal
entry. -/
def removeEntry (registry : List Entry) (entry : Entry) : List Entry :=
  registry.eraseP (fun e => Entry.same e entry)

end ProxyClient.Websocket
