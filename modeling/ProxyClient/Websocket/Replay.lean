import ProxyClient.Topics
import ProxyClient.Websocket.Reachable

/-!
# What a replay subscribes

The server identifies a subscription by the arguments on the wire, the registry by its
channel and params under Python's `==`. The replay subscribes exactly what is live at the
server as long as the two tests agree. They differ on params that OKX drops from the wire
because they are `None`, and on numbers and booleans that Python takes to be equal.
-/

namespace ProxyClient.Websocket

open Topics

variable {cfg : Config} {w₀ w w' : World} {e : Event} {d : Dialect}

/-! ## Wire arguments -/

/-- The channel and the params of a `subscribe()` or `unsubscribe()`. -/
abbrev ChannelCall := String × Option Params

/-- The registry entry of a call, in which the channel is not among the parameters. -/
def ChannelCall.entry (call : ChannelCall) : Entry := entryOf call.1 call.2

/-- A call that raises records nothing, so a rejected one leaves the registry alone. -/
@[simp] theorem subscriptions_endCall_raised (cfg : Config) (w : World) (k : ℕ) (exc : Exc) :
    (w.endCall cfg k (.raised exc)).subscriptions = w.subscriptions := by
  unfold World.endCall
  split <;> rfl

/-- No move but the return of a call changes the registry. -/
theorem Move.subscriptions (h : Move cfg w₀ e w w') (hne : ∀ k, e ≠ .resume k) :
    w'.subscriptions = w.subscriptions := by
  have endCall {k : ℕ} {call : Call} {outcome : Outcome} (hends : Ends w₀ e k call outcome) :
      (w.endCall cfg k outcome).subscriptions = w.subscriptions := by
    cases hends with
    | reply he => exact absurd he (hne k)
    | _ => exact subscriptions_endCall_raised cfg w k _
  cases h with
  | endCall _ _ _ hends => exact endCall hends
  | resume _ _ _ _ hends _ => exact endCall hends
  | _ => rfl

end ProxyClient.Websocket
