import ProxyClient.Websocket.Openings

/-!
# What goes over the wire

The frame of a request or a ping is handed to a socket at most once, whatever happens to the
connection afterwards: a reconnect replays subscriptions as new calls and resends no frame.
Read connection by connection, oldest first, the frames stand in the order in which their calls
began. How a call ended therefore tells its caller whether the server can have seen the frame.
-/

namespace ProxyClient.Websocket

open Transition

variable {cfg : Config} {w₀ w w' : World} {e : Event} {k c : ℕ} {call : Call}

/-- The call whose frame was handed to a socket. -/
def Sent.callNo : Sent → Option ℕ
  | .call k _ => some k
  | _ => none

/-- The calls whose frames were handed to the socket of a connection, in order. -/
def Connection.callsSent (conn : Connection) : List ℕ := conn.sent.filterMap Sent.callNo

/-- The calls whose frames were handed to a socket, by connection, the oldest first. -/
def World.callsSent (w : World) : List ℕ := w.conns.flatMap Connection.callsSent

/-! ## The last connection -/

/-- What does not see a change is the same after it. -/
theorem flatMap_modify_of_eq {α β : Type*} {f : α → α} {g : α → List β} {i : ℕ}
    (h : ∀ a, g (f a) = g a) (l : List α) : (l.modify i f).flatMap g = l.flatMap g := by
  induction l generalizing i with
  | nil => simp
  | cons a l ih =>
    cases i with
    | zero => simp [h]
    | succ i => simp [ih]

/-- What the last element of a list contributes comes last. -/
theorem flatMap_modify_last {α β : Type*} {f : α → α} {g : α → List β} {i : ℕ} {a : α}
    {b : List β} {l : List α} (hlast : i + 1 = l.length) (hi : l[i]? = some a)
    (h : g (f a) = g a ++ b) : (l.modify i f).flatMap g = l.flatMap g ++ b := by
  induction l generalizing i with
  | nil => simp at hi
  | cons a' l ih =>
    cases i with
    | zero =>
      obtain rfl : l = [] := by simpa using hlast
      obtain rfl : a' = a := by simpa using hi
      simp [h]
    | succ i =>
      have hrest := ih (by simpa using hlast) (by simpa using hi)
      simp [hrest]

/-- A frame of no call adds no call to what a connection has sent. -/
theorem callsSent_write_of_ne (conn : Connection) {frame : Sent} (h : frame.callNo = none) :
    (conn.write frame).callsSent = conn.callsSent := by
  unfold Connection.write
  split
  · simp [Connection.callsSent, h]
  · rfl

/-- The frame of a call adds that call, if the socket is live. -/
theorem callsSent_write (conn : Connection) (k : ℕ) (frame : Fields) :
    (conn.write (.call k frame)).callsSent =
      conn.callsSent ++ if conn.sock = .live then [k] else [] := by
  unfold Connection.write
  split
  · simp [Connection.callsSent, Sent.callNo]
  · simp

/-- An alteration of a connection hands no frame of a call to its socket. -/
theorem Alters.callsSent {f : Connection → Connection} (h : Alters w₀ e w c f)
    (conn : Connection) : (f conn).callsSent = conn.callsSent := by
  rcases h.sent_cases conn with ⟨hsent, -⟩ | ⟨-, -, -, -, hf⟩ | ⟨message, -, -, -, hf⟩
  · rw [Connection.callsSent, hsent]
    rfl
  · rw [hf, callsSent_write_of_ne _ rfl]
    rfl
  · rw [hf, callsSent_write_of_ne _ rfl]

/-- `_conn` is the newest connection, if it is one at all. -/
def Newest (w : World) : Prop := ∀ c, w.conn = some c → c + 1 = w.conns.length

/-- `_conn` holds the connection that was built last, or none. -/
theorem Move.newest (h : Move cfg w₀ e w w') (hnewest : Newest w) : Newest w' := by
  cases h with
  | start =>
    intro c hc
    cases hc
    simp
  | reconnect =>
    intro c hc
    cases hc
    simp [World.beginReconnect]
  | drop =>
    intro c hc
    cases hc
  | endCall =>
    rw [Newest, conn_endCall, conns_endCall]
    exact hnewest
  | resume =>
    rw [Newest, World.setBody_conn, World.setBody_conns, conn_endCall, conns_endCall]
    exact hnewest
  | alter => simpa [Newest] using hnewest
  | take => simpa [Newest] using hnewest
  | launch => simpa [Newest, World.launched] using hnewest
  | call => simpa [Newest, World.launched] using hnewest
  | _ => exact hnewest

/-- The frame of a new call comes last, if its socket takes it. -/
theorem callsSent_launched (hnewest : Newest w) (hsend : w.sendConn = some c) :
    (w.launched call c).callsSent =
      w.callsSent ++ if w.sock c = .live then [w.rpc.calls.length] else [] := by
  have hlast := hnewest c (Option.filter_eq_some_iff.mp hsend).1
  have hlt : c < w.conns.length := by omega
  have hconn := List.getElem?_eq_getElem hlt
  have hsock : w.sock c = w.conns[c].sock := by simp [World.sock, hconn]
  rw [hsock]
  exact flatMap_modify_last (f := (·.write (.call w.rpc.calls.length call.frame))) hlast hconn
    (callsSent_write _ w.rpc.calls.length call.frame)

/-- A move hands no frame of a call to a socket, or that of the call it begins, and that last. -/
theorem Move.callsSent (h : Move cfg w₀ e w w') (hnewest : Newest w) :
    w'.callsSent = w.callsSent ∨ w'.callsSent = w.callsSent ++ [w.rpc.calls.length] := by
  have launched {call : Call} {c : ℕ} (hframed : Framed cfg w call) (hbound : call.conn = some c)
      (hconns : w'.conns = (w.launched call c).conns) :
      w'.callsSent = w.callsSent ∨ w'.callsSent = w.callsSent ++ [w.rpc.calls.length] := by
    have hsent : w'.callsSent = (w.launched call c).callsSent := by
      rw [World.callsSent, hconns]
      rfl
    rw [hsent, callsSent_launched hnewest (hframed.conn.symm.trans hbound)]
    by_cases hlive : w.sock c = .live
    · exact .inr (by rw [if_pos hlive])
    · exact .inl (by rw [if_neg hlive, List.append_nil])
  have added (hconns : w'.conns = w.conns ++ [({} : Connection)]) :
      w'.callsSent = w.callsSent := by
    simp [World.callsSent, hconns, Connection.callsSent]
  cases h with
  | alter halters =>
    left
    rw [World.callsSent, World.modifyConn_conns]
    exact flatMap_modify_of_eq halters.callsSent w.conns
  | @take σ attempt c f inbox =>
    left
    have hsame (conn : Connection) :
        ({ conn with inbox := inbox } : Connection).callsSent = conn.callsSent := rfl
    rw [World.callsSent, World.setBody_conns, World.modifyConn_conns]
    exact flatMap_modify_of_eq hsame w.conns
  | launch _ hframed _ hbound => exact launched hframed hbound rfl
  | call _ hframed _ hbound => exact launched hframed hbound rfl
  | start => exact .inl (added rfl)
  | reconnect => exact .inl (added rfl)
  | endCall =>
    left
    rw [World.callsSent, conns_endCall]
    rfl
  | resume =>
    left
    rw [World.callsSent, World.setBody_conns, conns_endCall]
    rfl
  | _ => exact .inl rfl

/-- What was handed to a socket stays so. -/
theorem Moves.callsSent (h : Moves cfg w₀ e w₀ w) (hnewest : Newest w₀) :
    Newest w ∧ w₀.callsSent <+: w.callsSent := by
  induction h with
  | refl => exact ⟨hnewest, List.prefix_rfl⟩
  | tail _ hlast ih =>
    refine ⟨hlast.newest ih.1, ih.2.trans ?_⟩
    rcases hlast.callsSent ih.1 with hsame | hnew
    · exact hsame ▸ List.prefix_rfl
    · rw [hnew]
      exact List.prefix_append _ _

/-! ## Calls and the frames sent -/

/-- A frame of a call that was handed to the socket of a connection is that of a call bound to
it. -/
def Owned (w : World) : Prop :=
  ∀ (c : ℕ) conn k frame, w.conns[c]? = some conn → .call k frame ∈ conn.sent →
    ∃ call, w.rpc.calls[k]? = some call ∧ call.conn = some c ∧ call.frame = frame

/-- The frame of a call is handed to a socket, or it never will be. -/
structure Settled (w : World) (k c : ℕ) : Prop where
  /-- The connection of the call has been connected before. -/
  greeted : ∃ conn, w.conns[c]? = some conn ∧ conn.Greeted
  sent : k ∈ w.callsSent ∨ w.sock c ≠ .live

/-- What the calls and the frames sent have in common. -/
structure Wired (w : World) : Prop where
  newest : Newest w
  ordered : w.callsSent.Pairwise (· < ·)
  owned : Owned w
  settled : ∀ k call c, w.rpc.calls[k]? = some call → call.conn = some c → Settled w k c
  /-- A call that is refused was bound to no connection. -/
  refused : ∀ (k : ℕ) call, w.rpc.calls[k]? = some call →
    call.phase = .ended (.raised (.py .runtimeError)) → call.conn = none

/-- A call whose frame was sent has begun, on the connection whose socket took the frame. -/
theorem Owned.begun (h : Owned w) (hk : k ∈ w.callsSent) :
    ∃ call c conn, w.rpc.calls[k]? = some call ∧ call.conn = some c ∧
      w.conns[c]? = some conn ∧ k ∈ conn.callsSent := by
  obtain ⟨conn, hconn, hsent⟩ := List.mem_flatMap.mp hk
  obtain ⟨c, hc⟩ := List.mem_iff_getElem?.mp hconn
  obtain ⟨frame, hframe, hcallNo⟩ := List.mem_filterMap.mp hsent
  cases frame with
  | call k' fields =>
    cases hcallNo
    obtain ⟨call, hcall, hbound, -⟩ := h c conn k fields hc hframe
    exact ⟨call, c, conn, hcall, hbound, hc, hsent⟩
  | auth => cases hcallNo
  | message fields => cases hcallNo

/-- An alteration of a connection makes no socket live but the one that `open()` connects. -/
theorem Alters.live {f : Connection → Connection} (h : Alters w₀ e w c f) {conn : Connection}
    (hlive : (f conn).sock = .live) :
    conn.sock = .live ∨ ∃ τ, e = .connected τ ∧ w = w₀ ∧ w.opening? τ = some (c, .connecting) := by
  cases h with
  | connect he hw hopening => exact .inr ⟨_, he, hw, hopening⟩
  | message => exact .inl (by rwa [Connection.sock_write] at hlive)
  | beginClose =>
    unfold Connection.beginClose at hlive
    split at hlive
    · cases hlive
    · exact .inl hlive
  | endClose =>
    unfold Connection.endClose at hlive
    split at hlive
    · cases hlive
    · exact .inl hlive
  | close => cases hlive
  | _ => exact .inl hlive

/-- A socket that is live after a move was live before it, or `open()` has just connected it. -/
theorem Move.live (h : Move cfg w₀ e w w') (hlive : w'.sock c = .live) :
    w.sock c = .live ∨
      ∃ τ, e = .connected τ ∧ w = w₀ ∧ w.opening? τ = some (c, .connecting) := by
  have sock {v : World} {conn : Connection} (hconn : v.conns[c]? = some conn) :
      v.sock c = conn.sock := by simp [World.sock, hconn]
  cases hconn' : w'.conns[c]? with
  | none => simp [World.sock, hconn'] at hlive
  | some conn' =>
    rw [sock hconn'] at hlive
    rcases h.conn_cases hconn' with hold | ⟨f, conn, halters, hold, rfl⟩ |
      ⟨k, frame, conn, hold, rfl, -⟩ | ⟨-, rfl⟩
    · exact .inl ((sock hold).trans hlive)
    · rw [sock hold]
      exact halters.live hlive
    · rw [Connection.sock_write] at hlive
      exact .inl ((sock hold).trans hlive)
    · cases hlive

/-- A socket that is not live does not come back to life, unless its task is still to connect it. -/
theorem not_live_of_step (hlinked : Linked w) (h : step cfg w e = some w')
    (hsock : w.sock c ≠ .live) (hnot : ∀ τ, w.opening? τ ≠ some (c, .connecting)) :
    w'.sock c ≠ .live := by
  have hmoves := step_moves hlinked h
  clear h
  induction hmoves with
  | refl => exact hsock
  | tail _ hlast ih =>
    intro hlive
    rcases hlast.live hlive with hold | ⟨τ, -, rfl, hopening⟩
    · exact ih hold
    · exact hnot τ hopening

/-- A connection that is greeted stays so, as what was sent on it stays first. -/
theorem Move.keeps_greeted (h : Move cfg w₀ e w w') (hopenings₀ : Openings w₀)
    (hgreeted : ∃ conn, w.conns[c]? = some conn ∧ conn.Greeted) :
    ∃ conn, w'.conns[c]? = some conn ∧ conn.Greeted := by
  obtain ⟨conn, hconn, hgreeted⟩ := hgreeted
  have hlt : c < w'.conns.length :=
    (List.getElem?_eq_some_iff.mp hconn).1.trans_le (Moves.conns_length (.single h))
  refine ⟨_, List.getElem?_eq_getElem hlt, ?_⟩
  have hconn' := List.getElem?_eq_getElem hlt
  generalize w'.conns[c] = conn' at hconn' ⊢
  rcases h.conn_cases hconn' with hold | ⟨f, conn₀, halters, hold, rfl⟩ |
    ⟨k, frame, conn₀, hold, rfl, -⟩ | ⟨hnew, -⟩
  · exact Option.some.inj (hconn.symm.trans hold) ▸ hgreeted
  · obtain rfl := Option.some.inj (hconn.symm.trans hold)
    rcases halters.sent_cases conn with ⟨hsent, -⟩ | ⟨τ, -, rfl, hopening, -⟩ |
      ⟨message, -, -, -, hf⟩
    · rw [Connection.Greeted, hsent]
      exact hgreeted
    · obtain ⟨rest, hrest, -⟩ := hgreeted
      rw [(hopenings₀.connecting τ c conn hopening hold).sent] at hrest
      cases hrest
    · rw [hf]
      exact hgreeted.write (by simp)
  · obtain rfl := Option.some.inj (hconn.symm.trans hold)
    exact hgreeted.write (by simp)
  · have hlt₀ := (List.getElem?_eq_some_iff.mp hconn).1
    omega

/-- A call whose frame is settled stays so. -/
theorem Move.keeps_settled (h : Move cfg w₀ e w w') (hopenings₀ : Openings w₀)
    (hnewest : Newest w) (hsettled : Settled w k c) : Settled w' k c := by
  refine ⟨h.keeps_greeted hopenings₀ hsettled.greeted, ?_⟩
  rcases hsettled.sent with hsent | hsock
  · rcases h.callsSent hnewest with hsame | hnew
    · rw [hsame]
      exact .inl hsent
    · rw [hnew]
      exact .inl (List.mem_append_left _ hsent)
  · right
    intro hlive
    rcases h.live hlive with hold | ⟨τ, -, rfl, hopening⟩
    · exact hsock hold
    · obtain ⟨conn, hconn, rest, hrest, -⟩ := hsettled.greeted
      rw [(hopenings₀.connecting τ c conn hopening hconn).sent] at hrest
      cases hrest

/-- An alteration of a connection sends no frame of a call. -/
theorem Alters.call_mem_sent {f : Connection → Connection} (h : Alters w₀ e w c f)
    {conn : Connection} {frame : Fields} (hmem : .call k frame ∈ (f conn).sent) :
    .call k frame ∈ conn.sent := by
  rcases h.sent_cases conn with ⟨hsent, -⟩ | ⟨-, -, -, -, hf⟩ | ⟨message, -, -, -, hf⟩
  · rwa [hsent] at hmem
  · rw [hf] at hmem
    rcases Connection.mem_sent_write hmem with hold | ⟨hauth, -⟩
    · exact hold
    · cases hauth
  · rw [hf] at hmem
    rcases Connection.mem_sent_write hmem with hold | ⟨hmessage, -⟩
    · exact hold
    · cases hmessage

/-- A frame of a call that was sent was sent before the move, or the move begins the call. -/
theorem Move.call_mem_sent (h : Move cfg w₀ e w w') {conn' : Connection} {frame : Fields}
    (hconn' : w'.conns[c]? = some conn') (hmem : .call k frame ∈ conn'.sent) :
    (∃ conn, w.conns[c]? = some conn ∧ .call k frame ∈ conn.sent) ∨
      ∃ call, call.conn = some c ∧ call.frame = frame ∧ k = w.rpc.calls.length ∧
        w'.rpc = (w.rpc.draw call.op).register call := by
  have launched {call : Call} {c' : ℕ} (hbound : call.conn = some c')
      (hrpc : w'.rpc = (w.rpc.draw call.op).register call)
      (hconns : w'.conns = (w.launched call c').conns) :
      (∃ conn, w.conns[c]? = some conn ∧ .call k frame ∈ conn.sent) ∨
        ∃ call, call.conn = some c ∧ call.frame = frame ∧ k = w.rpc.calls.length ∧
          w'.rpc = (w.rpc.draw call.op).register call := by
    rw [hconns] at hconn'
    rcases World.conn_modifyConn_cases hconn' with ⟨-, hold⟩ | ⟨rfl, conn, hold, rfl⟩
    · exact .inl ⟨conn', hold, hmem⟩
    · rcases Connection.mem_sent_write hmem with hmem | ⟨hnew, -⟩
      · exact .inl ⟨conn, hold, hmem⟩
      · obtain ⟨rfl, rfl⟩ := Sent.call.inj hnew
        exact .inr ⟨call, hbound, rfl, rfl, hrpc⟩
  have added (hconns : w'.conns = w.conns ++ [({} : Connection)]) :
      ∃ conn, w.conns[c]? = some conn ∧ .call k frame ∈ conn.sent := by
    rw [hconns] at hconn'
    rcases Rpc.getElem?_concat_cases hconn' with hold | ⟨-, rfl⟩
    · exact ⟨conn', hold, hmem⟩
    · cases hmem
  cases h with
  | alter halters =>
    rcases World.conn_modifyConn_cases hconn' with ⟨-, hold⟩ | ⟨rfl, conn, hold, rfl⟩
    · exact .inl ⟨conn', hold, hmem⟩
    · exact .inl ⟨conn, hold, halters.call_mem_sent hmem⟩
  | take =>
    rcases World.conn_modifyConn_cases hconn' with ⟨-, hold⟩ | ⟨rfl, conn, hold, rfl⟩
    · exact .inl ⟨conn', hold, hmem⟩
    · exact .inl ⟨conn, hold, hmem⟩
  | launch _ _ _ hbound => exact launched hbound rfl rfl
  | call _ _ _ hbound => exact launched hbound rfl rfl
  | start => exact .inl (added rfl)
  | reconnect => exact .inl (added rfl)
  | endCall =>
    rw [conns_endCall] at hconn'
    exact .inl ⟨conn', hconn', hmem⟩
  | resume =>
    rw [World.setBody_conns, conns_endCall] at hconn'
    exact .inl ⟨conn', hconn', hmem⟩
  | _ => exact .inl ⟨conn', hconn', hmem⟩

/-- A call is on the wire of its own connection only. -/
theorem Move.owned (h : Move cfg w₀ e w w') (howned : Owned w) : Owned w' := by
  intro c conn' k frame hconn' hmem
  rcases h.call_mem_sent hconn' hmem with ⟨conn, hconn, hmem⟩ | ⟨call, hbound, hframe, rfl, hrpc⟩
  · obtain ⟨call, hcall, hbound, hframe⟩ := howned c conn k frame hconn hmem
    obtain ⟨call', hcall', hsame⟩ := h.extends k call hcall
    exact ⟨call', hcall', hsame.conn.trans hbound, hsame.frame.trans hframe⟩
  · exact ⟨call, by simp [hrpc, Rpc.register], hbound, hframe⟩

/-- The frame of a call that has begun on a connection is settled. -/
theorem Move.settled (h : Move cfg w₀ e w w') (hopenings₀ : Openings w₀) (hnewest : Newest w)
    (hgreeted : ∀ (c : ℕ) conn, w.conns[c]? = some conn → conn.Blank ∨ conn.Greeted)
    (hsettled : ∀ k call c, w.rpc.calls[k]? = some call → call.conn = some c → Settled w k c)
    (hcall : w'.rpc.calls[k]? = some call) (hbound : call.conn = some c) : Settled w' k c := by
  rcases h.call_origin hcall with ⟨call₀, hcall₀, hcontinues⟩ | ⟨rfl, hbegins⟩
  · have hbound₀ : call₀.conn = some c := hcontinues.same_call.conn.symm.trans hbound
    exact h.keeps_settled hopenings₀ hnewest (hsettled k call₀ c hcall₀ hbound₀)
  · cases hbegins with
    | refused _ hnone =>
      rw [hnone] at hbound
      cases hbound
    | @launched _ c' hbegun hbound' _ hconns =>
      obtain rfl := Option.some.inj (hbound.symm.trans hbound')
      have hsend : w.sendConn = some c := hbegun.framed.conn.symm.trans hbound
      have hheld := (Option.filter_eq_some_iff.mp hsend).1
      have hlt : c < w.conns.length := by
        have hlast := hnewest c hheld
        omega
      have hconn := List.getElem?_eq_getElem hlt
      have hconn₀ : ∃ conn, w.conns[c]? = some conn ∧ conn.Greeted :=
        ⟨_, hconn, .of_sendConn hsend hconn (hgreeted c _ hconn)⟩
      refine ⟨h.keeps_greeted hopenings₀ hconn₀, ?_⟩
      have hsent : w'.callsSent = (w.launched call c).callsSent := by
        rw [World.callsSent, hconns]
        rfl
      rw [hsent, callsSent_launched hnewest hsend]
      by_cases hlive : w.sock c = .live
      · rw [if_pos hlive]
        exact .inl (by simp)
      · right
        intro hlive'
        rcases h.live hlive' with hold | ⟨τ, -, rfl, hopening⟩
        · exact hlive hold
        · obtain ⟨conn, hconn, rest, hrest, -⟩ := hconn₀
          rw [(hopenings₀.connecting τ c conn hopening hconn).sent] at hrest
          cases hrest

/-- Every move keeps the calls and the frames sent together. -/
theorem Move.wired (h : Move cfg w₀ e w w') (hopenings₀ : Openings w₀)
    (hgreeted : ∀ (c : ℕ) conn, w.conns[c]? = some conn → conn.Blank ∨ conn.Greeted)
    (hinv₀ : w₀.rpc.Inv cfg.dialect) (hwired : Wired w) : Wired w' where
  newest := h.newest hwired.newest
  ordered := by
    rcases h.callsSent hwired.newest with hsame | hnew
    · rw [hsame]
      exact hwired.ordered
    · rw [hnew, List.pairwise_append]
      refine ⟨hwired.ordered, List.pairwise_singleton _ _, ?_⟩
      intro i hi j hj
      obtain rfl := List.mem_singleton.mp hj
      obtain ⟨call, -, -, hcall, -⟩ := hwired.owned.begun hi
      exact (List.getElem?_eq_some_iff.mp hcall).1
  owned := h.owned hwired.owned
  settled k call c hcall hbound :=
    h.settled hopenings₀ hwired.newest hgreeted hwired.settled hcall hbound
  refused k call hcall hphase := by
    rcases h.call_origin hcall with ⟨call₀, hcall₀, hcontinues⟩ | ⟨rfl, hbegins⟩
    · cases hcontinues with
      | same => exact hwired.refused k _ hcall₀ hphase
      | await => cases hphase
      | ends hends =>
        obtain rfl := Phase.ended.inj hphase
        cases hends with
        | failed _ _ hfuture => cases hinv₀.failed hfuture
    · cases hbegins with
      | launched hbegun =>
        rw [hbegun.framed.phase] at hphase
        cases hphase
      | refused _ hnone => exact hnone

/-- In every state of every run the calls and the frames sent belong together. -/
theorem wired_of_run {ok : World → Event → Prop} {es : List Event}
    (hrun : Run (step cfg) ok World.init es w) : Wired w := by
  have hinit : Wired World.init :=
    { newest := by simp [Newest, World.init]
      ordered := by simp [World.init, World.callsSent]
      owned := by simp [Owned, World.init]
      settled := by simp [World.init]
      refused := by simp [World.init] }
  refine hrun.invariant_of (I := fun w => Sound cfg w ∧ Openings w)
    (fun hrun => ⟨sound_of_run hrun, openings_of_run hrun⟩) hinit ?_
  rintro t e v ⟨hsound, hopenings⟩ - hwired - hstep
  have hmoves := step_moves hsound.linked hstep
  clear hstep
  induction hmoves with
  | refl => exact hwired
  | tail hchain hlast ih =>
    exact hlast.wired hopenings (Moves.greeted hchain hopenings) hsound.rpc ih

/-! ## What the end of a call tells -/

/-- The call waits for its future or ended after it did, as far as its end tells. -/
def Phase.pastSend : Phase → Bool
  | .sending => false
  | .waiting _ | .ended (.reply _) | .ended (.raised .timeoutError) => true
  | .ended (.raised exc) => exc.isConnectionError

/-- A call that ends in a way that only a call that waits can end in has waited. -/
theorem Ends.waiting {outcome : Outcome} (h : Ends w e k call outcome)
    (hpast : (Phase.ended outcome).pastSend = true) :
    ∃ deadline, call.phase = .waiting deadline := by
  cases h with
  | reply _ hphase => exact ⟨_, hphase⟩
  | failed _ hphase => exact ⟨_, hphase⟩
  | timeout _ hphase => exact ⟨_, hphase⟩
  | _ => cases hpast

/-- In every state of every run the frame of a call that is past its send was handed to its
socket. -/
theorem sent_of_pastSend {ok : World → Event → Prop} {es : List Event}
    (hrun : Run (step cfg) ok World.init es w) (hcall : w.rpc.calls[k]? = some call)
    (hpast : call.phase.pastSend = true) : k ∈ w.callsSent := by
  refine hrun.invariant_of (I := fun w => Sound cfg w ∧ Wired w)
    (J := fun w => ∀ k call, w.rpc.calls[k]? = some call → call.phase.pastSend = true →
      k ∈ w.callsSent)
    (fun hrun => ⟨sound_of_run hrun, wired_of_run hrun⟩) (by simp [World.init]) ?_ k call hcall
    hpast
  rintro t e v ⟨hsound, hwired⟩ - hsent - hstep k call hcall hpast
  have hmoves := step_moves hsound.linked hstep
  apply (hmoves.callsSent hwired.newest).2.subset
  cases hphase : call.phase with
  | sending => simp [hphase, Phase.pastSend] at hpast
  | waiting deadline =>
    rcases waits_of_step hstep hcall hphase with hold | hreturns
    · exact hsent k call hold hpast
    · obtain ⟨c, hbound, hlive⟩ := Option.map_eq_some_iff.mp hreturns.live
      rcases (hwired.settled k _ c hreturns.sending hbound).sent with hsent | hnot
      · exact hsent
      · exact absurd hlive hnot
  | ended outcome =>
    rw [hphase] at hpast
    rcases hmoves.ended hcall hphase with hold | ⟨call₀, hcall₀, hends⟩ | rfl
    · exact hsent k call hold (hphase ▸ hpast)
    · obtain ⟨deadline, hwaiting⟩ := hends.waiting hpast
      exact hsent k call₀ hcall₀ (by rw [hwaiting]; rfl)
    · cases hpast

/-! ## The wire -/

/-- In every run the frames of calls stand on the wire in the order in which the calls began, each
at most once, and on the connection that the call was bound to, however often the client
reconnects. -/
theorem frames_sent_once {es : List Event} (hrun : Run (step cfg) always World.init es w) :
    w.callsSent.Pairwise (· < ·) ∧ Owned w :=
  ⟨(wired_of_run hrun).ordered, (wired_of_run hrun).owned⟩

/-- In every run the frame of a call that got its reply, timed out or ended with a
`ConnectionError` was handed to a socket exactly once, and that of a call that ended with
`RuntimeError` never was. -/
theorem outcome_tells_sent {es : List Event} (hrun : Run (step cfg) always World.init es w)
    (hcall : w.rpc.calls[k]? = some call) :
    (call.phase.pastSend = true → w.callsSent.count k = 1) ∧
      (call.phase = .ended (.raised (.py .runtimeError)) → w.callsSent.count k = 0) := by
  have hwired := wired_of_run hrun
  constructor
  · intro hpast
    have hnodup : w.callsSent.Nodup := hwired.ordered.imp (fun h => Nat.ne_of_lt h)
    exact List.count_eq_one_of_mem hnodup (sent_of_pastSend hrun hcall hpast)
  · intro hrefused
    have hnone := hwired.refused k call hcall hrefused
    rw [List.count_eq_zero]
    intro hk
    obtain ⟨call', c, -, hcall', hbound, -⟩ := hwired.owned.begun hk
    obtain rfl := Option.some.inj (hcall'.symm.trans hcall)
    rw [hnone] at hbound
    cases hbound

/-- An order placed with the key `key`, by the method `add_order`. -/
def orderRequest (key : String) : Operation := .request "add_order" none 10 (some key) ""

/-- An order is refused before the start, the next one is in flight when the connection drops, and
its retry goes out on the new connection. -/
def retryEvents : List Event :=
  .call (orderRequest "a") :: startEvents ++ [.call (orderRequest "a"), .sent 1,
    .sockClosed 0 false, .socketEnd 1, .resume 1, .tick 1, .wake 1] ++ openEvents 1 1 ++
    [.call (orderRequest "a"), .sent 2]

/-- Of the three orders the first is refused, and the other two are on the wire once each. -/
theorem frames_sent_once_retried :
    ∃ w, Run (step (.sample .kraken none)) always World.init retryEvents w ∧
      w.callsSent = [1, 2] ∧ w.callsSent.Pairwise (· < ·) ∧ Owned w := by
  obtain ⟨w, hrun, hsent⟩ :
      ∃ w, Run (step (.sample .kraken none)) always World.init retryEvents w ∧
        w.callsSent = [1, 2] := Run.exists_of_exec (by decide +kernel)
  exact ⟨w, hrun, hsent, frames_sent_once hrun⟩

/-- The outcome of the first says that it was not sent, and that of the second that it was. -/
theorem outcome_tells_sent_retried :
    ∃ w, Run (step (.sample .kraken none)) always World.init retryEvents w ∧
      w.callsSent.count 0 = 0 ∧ w.callsSent.count 1 = 1 := by
  obtain ⟨w, hrun, ⟨call₀, hcall₀, hrefused⟩, call₁, hcall₁, hpast⟩ :
      ∃ w, Run (step (.sample .kraken none)) always World.init retryEvents w ∧
        (∃ call ∈ w.rpc.calls[0]?, call.phase = .ended (.raised (.py .runtimeError))) ∧
        ∃ call ∈ w.rpc.calls[1]?, call.phase.pastSend = true :=
    Run.exists_of_exec (by decide +kernel)
  exact ⟨w, hrun, (outcome_tells_sent hrun hcall₀).2 hrefused,
    (outcome_tells_sent hrun hcall₁).1 hpast⟩

end ProxyClient.Websocket
