import ProxyClient.Websocket.Delivery
import ProxyClient.Websocket.Inbox

/-!
# What ends the read loop

`_pump` takes frames from a connection and dispatches them until the socket ends or the client
is stopped. Four kinds of frames end it as well: text on which `json.loads` raises something
other than `JSONDecodeError`, JSON that is no object, a correlation key that cannot be hashed,
and a channel that cannot be hashed.
-/

namespace ProxyClient.Websocket

variable {cfg : Config} {w₀ w w' : World} {e : Event} {f : Inbound} {σ a c : ℕ}

/-! ## Frames that the dispatch gets through with -/

/-- `resolve` consumes a frame: a waiter is registered in its slot, or it is an error that
no caller could ever match. -/
def Consumed (cfg : Config) (w : World) (f : Inbound) : Prop :=
  SlotTaken cfg w f ∨ (Fields.get f.fields "event" = .str "error" ∧
    cfg.dialect.responseKey f.fields = .null)

/-- The dispatch gets through with a frame: it is an object, and nothing in it raises. -/
structure Dispatchable (cfg : Config) (w : World) (f : Inbound) : Prop where
  /-- The frame is an object. -/
  object : ∃ fields, f.raw = .json (.obj fields)
  /-- Its correlation key can be hashed. A pong is told by its event alone. -/
  key : Fields.get f.fields "event" ≠ .str "pong" →
    (cfg.dialect.responseKey f.fields).key? ≠ none
  /-- Its channel, if it has one and the frame is not consumed, can be hashed. -/
  channel : ¬Consumed cfg w f → (cfg.dialect.channelOf f.fields).truthy = true →
    (cfg.dialect.channelOf f.fields).key? ≠ none

/-- The dispatch calls no further callback after this one for a frame. -/
def LastCallback (cfg : Config) (w : World) (f : Inbound) : Callback → Prop
  | .onMessage => Consumed cfg w f ∨ ¬w.Listening cfg f
  | .handler _ rest wildcard =>
    rest = [] ∧ (wildcard = true → (w.handlers.lookup "*").getD [] = [])

/-- What `resolve` does with a frame whose key can be hashed. -/
theorem resolve_of_key (hkey : Fields.get f.fields "event" ≠ .str "pong" →
      (cfg.dialect.responseKey f.fields).key? ≠ none) :
    ∃ consumed p, w.rpc.pending.resolve f (cfg.dialect.responseKey f.fields) = .ok (consumed, p) ∧
      (consumed = true ↔ Consumed cfg w f) := by
  by_cases htaken : SlotTaken cfg w f
  · obtain ⟨key, i, hslot, hlookup⟩ := id htaken
    exact ⟨true, _, PendingRequests.resolve_of_slot hslot hlookup, by simp [Consumed, htaken]⟩
  · cases hslot : cfg.dialect.slotOf f with
    | some key =>
      have hlookup : w.rpc.pending.futures.lookup key = none := by
        by_contra hne
        obtain ⟨i, hi⟩ := Option.ne_none_iff_exists'.mp hne
        exact htaken ⟨key, i, hslot, hi⟩
      have hnull : cfg.dialect.responseKey f.fields = .null →
          Fields.get f.fields "event" = .str "pong" := by
        intro hnull
        by_contra hpong
        simp [Dialect.slotOf, hpong, hnull] at hslot
      refine ⟨false, _, PendingRequests.resolve_of_empty hslot hlookup, ?_⟩
      simp only [Bool.false_eq_true, Consumed, htaken, false_or, false_iff, not_and]
      intro herror hnull'
      rw [hnull hnull'] at herror
      simp at herror
    | none =>
      have hpong : Fields.get f.fields "event" ≠ .str "pong" := by
        intro hpong
        simp [Dialect.slotOf, hpong] at hslot
      have hnull : cfg.dialect.responseKey f.fields = .null := by
        by_contra hne
        simp only [Dialect.slotOf, hpong, hne, if_false] at hslot
        exact hkey hpong hslot
      refine ⟨decide (Fields.get f.fields "event" = .str "error"), w.rpc.pending, ?_, ?_⟩
      · simp [PendingRequests.resolve, hpong, hnull]
      · simp [Consumed, htaken, hnull]

/-- A key that cannot be hashed raises `TypeError`. -/
theorem resolve_error (hpong : Fields.get f.fields "event" ≠ .str "pong")
    (hkey : (cfg.dialect.responseKey f.fields).key? = none) :
    w.rpc.pending.resolve f (cfg.dialect.responseKey f.fields) = .error .typeError := by
  have hnull : cfg.dialect.responseKey f.fields ≠ .null := by
    intro hnull
    rw [hnull] at hkey
    cases hkey
  simp [PendingRequests.resolve, hpong, hnull, hkey]

/-! ## Where the pump stands after a frame -/

/-- What a task pumps after it went on is what its new suspension point pumps. -/
theorem pumps_setBody_self (b : Body) (hlt : σ < w.tasks.length) :
    ((w.setBody σ b).body σ).pumps = b.pumps := by
  rw [World.body_setBody_self b hlt]

/-- When `_pump` has returned, its task pumps no connection. -/
theorem pumps_pumpReturned (cfg : Config) (w : World) (σ a : ℕ) (exc : Option Exc) :
    ((w.pumpReturned cfg σ a exc).body σ).pumps = none :=
  World.seen_pumpReturned cfg w σ a exc rfl (fun _ _ => rfl) (fun _ _ _ => rfl)

/-- The pump has handled what it had in hand: it stays on its connection with the correlator
untouched if a condition holds, and returns if it does not. -/
inductive Pumped (cfg : Config) (w : World) (σ a c : ℕ) (stays : Prop) : World → Prop
  | on {b : Body} : stays → b.pumps = some c → Pumped cfg w σ a c stays (w.setBody σ b)
  | left (exc : Option Exc) : ¬stays → Pumped cfg w σ a c stays (w.pumpReturned cfg σ a exc)

namespace Pumped

variable {stays stays' : Prop}

/-- The condition may be replaced by an equivalent one. -/
theorem congr (h : Pumped cfg w σ a c stays w') (hiff : stays ↔ stays') :
    Pumped cfg w σ a c stays' w' := by
  cases h with
  | on hstays hb => exact .on (hiff.mp hstays) hb
  | left exc hstays => exact .left exc (fun h => hstays (hiff.mpr h))

/-- Where the task pumps afterwards, the condition held, and conversely. -/
theorem pumps_iff (h : Pumped cfg w σ a c stays w') (hlt : σ < w.tasks.length) :
    (w'.body σ).pumps = some c ↔ stays := by
  cases h with
  | on hstays hb =>
    rw [World.body_setBody_self _ hlt]
    exact ⟨fun _ => hstays, fun _ => hb⟩
  | left exc hstays =>
    rw [pumps_pumpReturned]
    exact ⟨nofun, fun h => absurd h hstays⟩

/-- Where it pumps on, the correlator is untouched. -/
theorem rpc (h : Pumped cfg w σ a c stays w') (hpumps : (w'.body σ).pumps = some c) :
    w'.rpc = w.rpc := by
  cases h with
  | on => rfl
  | left exc =>
    rw [pumps_pumpReturned] at hpumps
    cases hpumps

end Pumped

/-- The pump enters `recv` again unless another task is in it. -/
theorem pumped_read (cfg : Config) (w : World) (σ a c : ℕ) :
    Pumped cfg w σ a c (w.readByOther σ c = false) (w.read cfg σ a c) := by
  unfold World.read
  split
  · rename_i hother
    exact .left _ (by simp [hother])
  · rename_i hother
    exact .on (by simpa using hother) rfl

/-- The pump goes on to the next handler, and back to `recv` after the last one. -/
theorem pumped_runHandlers (cfg : Config) (w : World) (σ a c : ℕ) (f : Inbound) (hs : List ℕ)
    (wildcard : Bool) :
    Pumped cfg w σ a c (hs = [] ∧ (wildcard = true → (w.handlers.lookup "*").getD [] = []) →
        w.readByOther σ c = false)
      (w.runHandlers cfg σ a c f hs wildcard) := by
  unfold World.runHandlers
  split
  · exact .on (by simp) rfl
  · split
    · rename_i hwild
      split
      · rename_i hrest
        exact .on (fun h => absurd (h.2 hwild) (by simp [hrest])) rfl
      · rename_i hnil
        exact (pumped_read cfg w σ a c).congr (by simp [hnil])
    · rename_i hwild
      exact (pumped_read cfg w σ a c).congr (by simp [hwild])

/-- `_deliver` gets to the handlers unless the channel cannot be hashed. -/
theorem pumped_deliver (cfg : Config) (w : World) (σ a c : ℕ) (f : Inbound) :
    Pumped cfg w σ a c (((cfg.dialect.channelOf f.fields).truthy = true →
        (cfg.dialect.channelOf f.fields).key? ≠ none) ∧
      (¬w.Listening cfg f → w.readByOther σ c = false)) (w.deliver cfg σ a c f) := by
  unfold World.deliver
  simp only
  split
  · rename_i hheartbeat
    have hkey : (cfg.dialect.channelOf f.fields).key? ≠ none := by
      rw [hheartbeat.1]
      exact nofun
    have hlisten : ¬w.Listening cfg f := fun h => h.wanted hheartbeat
    exact (pumped_read cfg w σ a c).congr
      ⟨fun h => ⟨fun _ => hkey, fun _ => h⟩, fun h => h.2 hlisten⟩
  · rename_i hwanted
    split
    · rename_i exc hof
      unfold World.handlersOf at hof
      split at hof
      · rename_i htruthy
        split at hof
        · rename_i hkey
          exact .left _ (fun h => absurd hkey (h.1 htruthy))
        · cases hof
        · cases hof
      · cases hof
    · rename_i hs hof
      have hkey : (cfg.dialect.channelOf f.fields).truthy = true →
          (cfg.dialect.channelOf f.fields).key? ≠ none := by
        intro htruthy hkey
        simp [World.handlersOf, htruthy, hkey] at hof
      have hlisten : ¬w.Listening cfg f ↔
          hs = [] ∧ (true = true → (w.handlers.lookup "*").getD [] = []) := by
        constructor
        · intro hno
          by_contra hne
          refine hno ⟨hwanted, hs, hof, ?_⟩
          by_contra hnil
          simp only [not_or, not_not] at hnil
          exact hne ⟨hnil.1, fun _ => hnil.2⟩
        · rintro ⟨hnil, hwild⟩ ⟨-, hs', hof', hne⟩
          rw [hof] at hof'
          cases hof'
          rcases hne with hne | hne
          · exact hne hnil
          · exact hne (hwild rfl)
      apply (pumped_runHandlers cfg w σ a c f hs true).congr
      rw [hlisten]
      exact ⟨fun h => ⟨hkey, h⟩, fun h => h.2⟩

/-- `resolve` fails no future: it can only give one its result. -/
theorem future_of_resolve {consumed : Bool} {p : PendingRequests} {k : ℕ} {exc : Exc}
    (h : w.rpc.pending.resolve f (cfg.dialect.responseKey f.fields) = .ok (consumed, p))
    (hpending : w.rpc.future k = some .pending) : p.heap[k]? ≠ some (.exception exc) := by
  rcases PendingRequests.resolve_cases h with rfl | ⟨key, -, rfl⟩
  · intro hexc
    rw [Rpc.future, hexc] at hpending
    cases hpending
  · intro hexc
    unfold PendingRequests.settle at hexc
    split at hexc
    · rw [Rpc.future, hexc] at hpending
      cases hpending
    · rcases Future.getElem?_complete_cases hexc with hold | ⟨-, -, hresult⟩
      · rw [Rpc.future, hold] at hpending
        cases hpending
      · cases hresult

/-- The pump goes on from `w` to `w'`: it has not left the connection, and no future has
failed. -/
structure GoesOn (w : World) (σ c : ℕ) (w' : World) : Prop where
  pumps : (w'.body σ).pumps = some c
  pending : ∀ (k : ℕ) (exc : Exc), w.rpc.future k = some .pending →
    w'.rpc.future k ≠ some (.exception exc)

/-- With the correlator untouched no future fails. -/
theorem GoesOn.of_rpc (hpumps : (w'.body σ).pumps = some c) (hrpc : w'.rpc = w.rpc) :
    GoesOn w σ c w' := by
  refine ⟨hpumps, ?_⟩
  intro k exc hpending hexc
  rw [hrpc, hpending] at hexc
  cases hexc

/-- The pump goes on if and only if the condition of its handling holds. -/
theorem Pumped.goesOn_iff {stays : Prop} (h : Pumped cfg w σ a c stays w')
    (hlt : σ < w.tasks.length) : GoesOn w σ c w' ↔ stays := by
  rw [← h.pumps_iff hlt]
  exact ⟨fun hgoes => hgoes.pumps, fun hpumps => .of_rpc hpumps (h.rpc hpumps)⟩

/-- The client after a frame was offered to `resolve`. -/
def World.offered (w : World) (c : ℕ) (f : Inbound) (p : PendingRequests) : World :=
  { w.modifyConn c (fun conn => { conn with resolved := conn.resolved ++ [f] }) with
    rpc := { w.rpc with pending := p } }

/-- A frame that `resolve` accepts is consumed, and one that it does not is delivered. -/
theorem dispatch_of_resolve {fields : Fields} {consumed : Bool} {p : PendingRequests}
    (hraw : f.raw = .json (.obj fields))
    (h : w.rpc.pending.resolve f (cfg.dialect.responseKey f.fields) = .ok (consumed, p)) :
    w.dispatch cfg σ a c f = if consumed = true then (w.offered c f p).read cfg σ a c
      else (w.offered c f p).deliver cfg σ a c f := by
  unfold World.dispatch
  simp only [hraw, World.modifyConn_rpc, h]
  rfl

/-- The pump returns on a frame that is no object or whose key cannot be hashed. -/
theorem dispatch_of_error (h : (¬∃ fields, f.raw = .json (.obj fields)) ∨
      w.rpc.pending.resolve f (cfg.dialect.responseKey f.fields) = .error .typeError) :
    ∃ w₁ exc, w.dispatch cfg σ a c f = World.pumpReturned cfg w₁ σ a exc := by
  unfold World.dispatch
  split
  · rename_i fields hraw
    rcases h with h | h
    · exact absurd ⟨fields, hraw⟩ h
    · simp only [World.modifyConn_rpc, h]
      exact ⟨_, _, rfl⟩
  · exact ⟨_, _, rfl⟩

/-- The pump goes on after the dispatch of a frame exactly when the dispatch gets through with
it, and no other task is in `recv` when this one gets back there. -/
theorem goesOn_dispatch (hlt : σ < w.tasks.length) :
    GoesOn w σ c (w.dispatch cfg σ a c f) ↔ Dispatchable cfg w f ∧
      (LastCallback cfg w f .onMessage → w.readByOther σ c = false) := by
  have left (h : ∃ w₁ exc, w.dispatch cfg σ a c f = World.pumpReturned cfg w₁ σ a exc) :
      ¬GoesOn w σ c (w.dispatch cfg σ a c f) := by
    obtain ⟨w₁, exc, heq⟩ := h
    rintro ⟨hpumps, -⟩
    rw [heq, pumps_pumpReturned] at hpumps
    cases hpumps
  by_cases hobject : ∃ fields, f.raw = .json (.obj fields)
  · by_cases hkey : Fields.get f.fields "event" ≠ .str "pong" →
        (cfg.dialect.responseKey f.fields).key? ≠ none
    · obtain ⟨fields, hraw⟩ := id hobject
      obtain ⟨consumed, p, hresolve, hconsumed⟩ := resolve_of_key (w := w) hkey
      have goes {stays : Prop} {w₃ : World} (h : Pumped cfg (w.offered c f p) σ a c stays w₃) :
          GoesOn w σ c w₃ ↔ stays := by
        refine ⟨fun hgoes => (h.pumps_iff hlt).mp hgoes.pumps, fun hstays => ?_⟩
        have hpumps := (h.pumps_iff hlt).mpr hstays
        refine ⟨hpumps, fun k exc hpending => ?_⟩
        rw [h.rpc hpumps]
        exact future_of_resolve hresolve hpending
      rw [dispatch_of_resolve hraw hresolve]
      split
      · rename_i hcons
        have hcons : Consumed cfg w f := hconsumed.mp hcons
        rw [goes (pumped_read cfg _ σ a c)]
        exact ⟨fun h => ⟨⟨hobject, hkey, fun hno => absurd hcons hno⟩, fun _ => h⟩,
          fun h => h.2 (.inl hcons)⟩
      · rename_i hcons
        have hcons : ¬Consumed cfg w f := fun h => hcons (hconsumed.mpr h)
        have hlisten : (w.offered c f p).Listening cfg f ↔ w.Listening cfg f :=
          ⟨fun h => ⟨h.wanted, h.registered⟩, fun h => ⟨h.wanted, h.registered⟩⟩
        rw [goes (pumped_deliver cfg _ σ a c f), hlisten]
        constructor
        · intro h
          exact ⟨⟨hobject, hkey, fun _ => h.1⟩, fun hlast => h.2 (hlast.resolve_left hcons)⟩
        · intro h
          exact ⟨h.1.channel hcons, fun hno => h.2 (.inr hno)⟩
    · have hbad : Fields.get f.fields "event" ≠ .str "pong" ∧
          (cfg.dialect.responseKey f.fields).key? = none := by
        simpa using hkey
      exact ⟨fun h => absurd h (left (dispatch_of_error (.inr (resolve_error hbad.1 hbad.2)))),
        fun h => absurd h.1.key hkey⟩
  · exact ⟨fun h => absurd h (left (dispatch_of_error (.inl hobject))),
      fun h => absurd h.1.object hobject⟩

/-! ## Steps -/

/-- Why the pump of a task may return: its socket ended, the client was stopped, the task was
cancelled, or a callback let a `CancelledError` out. -/
inductive Ended (w : World) (e : Event) (σ c : ℕ) : Prop
  | socket {clean : Bool} : e = .socketEnd σ → w.sock c = .closed clean → Ended w e σ c
  | stopped : w.running = false → Ended w e σ c
  | cancelled : w.isCancelled σ = true → Ended w e σ c
  | callback : e = .callbackEnd σ .cancelled → Ended w e σ c

/-- Every pump that has no reason to return goes on, and no frame fails a future. -/
def ReadsOn (w : World) (e : Event) (w' : World) : Prop :=
  ∀ σ c, (w.body σ).pumps = some c → ¬Ended w e σ c →
    (w'.body σ).pumps = some c ∧ (e.handles = some σ → GoesOn w σ c w')

/-- What the pump of a running client handles in a step does not end it. -/
structure Digests (cfg : Config) (w : World) (e : Event) : Prop where
  /-- `json.loads` returns or raises `JSONDecodeError`. -/
  loads : ∀ σ c f, e = .recv σ → (w.body σ).pumps = some c → (w.inbox c).head? = some f →
    w.running = true → f.raw ≠ .unloadable
  /-- The dispatch gets through with the frame, and no other task is in `recv` when the pump
  gets back there. -/
  dispatches : ∀ σ a c f cb, e = .callbackEnd σ .returned ∨ e = .callbackEnd σ .raised →
    w.body σ = .supervise a (.inCallback c f cb) → w.running = true →
    (cb = .onMessage → Dispatchable cfg w f) ∧
      (LastCallback cfg w f cb → w.readByOther σ c = false)

/-- The step in which `recv` returns goes on if and only if the frame can be loaded. -/
theorem goesOn_recv (h : step cfg w (.recv σ) = some w') (hpumps : (w.body σ).pumps = some c)
    (hrun : w.running = true) :
    GoesOn w σ c w' ↔ ∀ f, (w.inbox c).head? = some f → f.raw ≠ .unloadable := by
  simp only [step] at h
  split at h
  · cases h
  · unfold World.recvStep at h
    split at h
    · rename_i a c' hb
      obtain rfl : c' = c := by
        rw [hb] at hpumps
        exact Option.some.inj hpumps
      have hlt : σ < w.tasks.length := World.lt_of_body_ne (by rw [hb]; simp)
      split at h
      · rename_i f inbox hinbox
        have hhead : (w.inbox c').head? = some f := by simp [World.inbox, hinbox]
        simp only [hhead, Option.some.injEq, forall_eq']
        simp only [World.modifyConn_running, hrun, if_true] at h
        split at h
        · rename_i hraw
          obtain rfl := Option.some.inj h
          exact ⟨fun _ => by simp [hraw], fun _ => .of_rpc (by rw [← hpumps]; rfl) rfl⟩
        · rename_i hraw
          obtain rfl := Option.some.inj h
          refine ⟨fun hgoes => ?_, fun hne => absurd hraw hne⟩
          have hleft := hgoes.pumps
          rw [pumps_pumpReturned] at hleft
          cases hleft
        · rename_i hraw
          obtain rfl := Option.some.inj h
          exact ⟨fun _ => by simp [hraw], fun _ => .of_rpc (pumps_setBody_self _ hlt) rfl⟩
      · cases h
    · cases h

/-- The step in which a callback ends goes on if and only if the dispatch gets through and, after
its last callback, nobody else reads the connection. -/
theorem goesOn_callbackEnd {cb : Callback}
    (he : e = .callbackEnd σ .returned ∨ e = .callbackEnd σ .raised)
    (h : step cfg w e = some w') (hb : w.body σ = .supervise a (.inCallback c f cb)) :
    GoesOn w σ c w' ↔ (cb = .onMessage → Dispatchable cfg w f) ∧
      (LastCallback cfg w f cb → w.readByOther σ c = false) := by
  have hlt : σ < w.tasks.length := World.lt_of_body_ne (by rw [hb]; simp)
  cases cb with
  | onMessage =>
    have hdispatch : w.dispatch cfg σ a c f = w' := by
      rcases he with rfl | rfl <;> simp only [step, World.callbackEndStep, hb] at h <;>
        split at h <;> first | exact Option.some.inj h | cases h
    rw [← hdispatch, goesOn_dispatch hlt]
    simp
  | handler i rest wildcard =>
    have hhandlers : w.runHandlers cfg σ a c f rest wildcard = w' := by
      rcases he with rfl | rfl <;> simp only [step, World.callbackEndStep, hb] at h <;>
        split at h <;> first | exact Option.some.inj h | cases h
    rw [← hhandlers, (pumped_runHandlers cfg w σ a c f rest wildcard).goesOn_iff hlt]
    simp [LastCallback]

/-- A callback that calls the client stays in the pump. -/
theorem pumps_callbackCall {op : Operation} (h : step cfg w (.callbackCall σ op) = some w')
    (hpumps : (w.body σ).pumps = some c) : (w'.body σ).pumps = some c := by
  have hlt := lt_of_pumps hpumps
  simp only [step] at h
  split at h
  · cases h
  · unfold World.callbackCallStep at h
    split at h
    · rename_i a c' f cb hb
      rcases perform_cases cfg w (.callback σ) op with ⟨err, -, hperform⟩ |
        ⟨call, -, -, -, -, hperform⟩ | ⟨call, c₁, -, -, -, -, hperform⟩
      · simp only [hperform] at h
        obtain rfl := Option.some.inj h
        exact hpumps
      · simp only [hperform] at h
        obtain rfl := Option.some.inj h
        exact hpumps
      · simp only [hperform] at h
        obtain rfl := Option.some.inj h
        rw [hb] at hpumps
        exact (pumps_setBody_self _ hlt).trans hpumps
    · cases h

/-- A call of a callback that ends leaves the pump where it is. -/
theorem pumps_callStep {k : ℕ} {call : Call} (hlinked : Linked w) (hcallNo : e.callNo = some k)
    (h : w.callStep cfg k e = some w') (hcall : w.rpc.calls[k]? = some call)
    (htask : call.owner.task = some σ) (hpumps : (w.body σ).pumps = some c) :
    (w'.body σ).pumps = some c := by
  have hlt := lt_of_pumps hpumps
  obtain ⟨call', hcall', hended, ⟨-, deadline, rfl⟩ | ⟨outcome, -, rfl⟩⟩ :=
    callStep_cases hcallNo h
  · exact hpumps
  · obtain rfl := Option.some.inj (hcall'.symm.trans hcall)
    have hawaits := hlinked.awaited hcall hended htask
    rcases Body.pumps_cases hpumps with ⟨a, hb⟩ | ⟨a, f, cb, hb⟩ | ⟨a, f, cb, k', hb⟩
    · rw [hb] at hawaits
      cases hawaits
    · rw [hb] at hawaits
      cases hawaits
    · rw [hb] at hawaits
      obtain ⟨howner, rfl⟩ := Prod.mk.inj (Option.some.inj hawaits)
      simp only [World.conclude, hcall, ← howner, World.resumeOwner, body_endCall, hb, if_true]
      exact pumps_setBody_self _ (by rwa [tasks_endCall])

/-- `recv` raises `ConnectionClosed` on a closed socket only. -/
theorem closed_of_socketEnd (h : step cfg w (.socketEnd σ) = some w')
    (hpumps : (w.body σ).pumps = some c) : ∃ clean, w.sock c = .closed clean := by
  simp only [step] at h
  split at h
  · cases h
  · unfold World.socketEndStep at h
    split at h
    · rename_i hb
      rw [hb] at hpumps
      cases hpumps
      split at h
      · rename_i hclosed
        exact ⟨_, hclosed⟩
      · rename_i hclosed
        exact ⟨_, hclosed⟩
      · cases h
    · cases h

/-- Every step of the task that handles no frame keeps the pump going. -/
theorem pumps_of_acts (hsound : Sound cfg w) (h : step cfg w e = some w')
    (hpumps : (w.body σ).pumps = some c) (hended : ¬Ended w e σ c) (hact : Acts w e σ)
    (hhandles : e.handles ≠ some σ) : (w'.body σ).pumps = some c := by
  have hlt := lt_of_pumps hpumps
  cases hact with
  | stop => exact absurd hlt (by omega)
  | @call e k call _ hk hcall htask =>
    have hstep : w.callStep cfg k e = some w' := by
      cases e <;> cases hk <;> exact h
    exact pumps_callStep hsound.linked hk hstep hcall htask hpumps
  | task htask =>
    rcases task_of_pumps h hpumps htask with he | rfl | rfl | ⟨op, rfl⟩
    · exact absurd he hhandles
    · obtain ⟨clean, hclosed⟩ := closed_of_socketEnd h hpumps
      exact absurd (.socket rfl hclosed) hended
    · simp only [step] at h
      split at h
      · rename_i hcancelled
        exact absurd (.cancelled hcancelled) hended
      · cases h
    · exact pumps_callbackCall h hpumps

/-- A pump that takes a frame or ends a callback while the client runs has no reason to
return. -/
theorem not_ended_of_handles (h : step cfg w e = some w') (hrun : w.running = true)
    (he : e = .recv σ ∨ e = .callbackEnd σ .returned ∨ e = .callbackEnd σ .raised) :
    ¬Ended w e σ c := by
  have hcancelled : w.isCancelled σ = false := by
    by_contra hne
    rcases he with rfl | rfl | rfl <;> simp [step, hne] at h
  intro hended
  cases hended with
  | socket heq => rcases he with rfl | rfl | rfl <;> cases heq
  | stopped hstopped => simp [hrun] at hstopped
  | cancelled hc => simp [hcancelled] at hc
  | callback heq => rcases he with rfl | rfl | rfl <;> cases heq

/-- A step keeps every pump going exactly when the pumps digest what they handle in it. -/
theorem readsOn_iff (hsound : Sound cfg w) (h : step cfg w e = some w') :
    ReadsOn w e w' ↔ Digests cfg w e := by
  constructor
  · intro hreads
    constructor
    · intro σ c f he hpumps hhead hrun
      have hended : ¬Ended w e σ c := not_ended_of_handles h hrun (.inl he)
      subst he
      exact (goesOn_recv h hpumps hrun).mp ((hreads σ c hpumps hended).2 rfl) f hhead
    · intro σ a c f cb he hb hrun
      have hended : ¬Ended w e σ c := not_ended_of_handles h hrun (.inr he)
      have hhandles : e.handles = some σ := by rcases he with rfl | rfl <;> rfl
      exact (goesOn_callbackEnd he h hb).mp
        ((hreads σ c (by rw [hb]; rfl) hended).2 hhandles)
  · intro hdigests σ c hpumps hended
    have hrun : w.running = true := by
      by_contra hne
      exact hended (.stopped (by simpa using hne))
    by_cases hhandles : e.handles = some σ
    · have hgoes : GoesOn w σ c w' := by
        cases e with
        | recv τ =>
          obtain rfl := Option.some.inj hhandles
          exact (goesOn_recv h hpumps hrun).mpr
            (fun f hhead => hdigests.loads _ c f rfl hpumps hhead hrun)
        | callbackEnd τ result =>
          obtain rfl := Option.some.inj hhandles
          have he : Event.callbackEnd τ result = .callbackEnd τ .returned ∨
              Event.callbackEnd τ result = .callbackEnd τ .raised := by
            cases result with
            | returned => exact .inl rfl
            | raised => exact .inr rfl
            | cancelled => exact absurd (.callback rfl) hended
          obtain ⟨a, f, cb, hb⟩ : ∃ a f cb, w.body τ = .supervise a (.inCallback c f cb) := by
            rcases Body.pumps_cases hpumps with ⟨a, hb⟩ | hbody | ⟨a, f, cb, k, hb⟩
            · simp [step, World.callbackEndStep, hb] at h
            · exact hbody
            · simp [step, World.callbackEndStep, hb] at h
          exact (goesOn_callbackEnd he h hb).mpr (hdigests.dispatches τ a c f cb he hb hrun)
        | _ => cases hhandles
      exact ⟨hgoes.pumps, fun _ => hgoes⟩
    · by_cases hact : Acts w e σ
      · exact ⟨pumps_of_acts hsound h hpumps hended hact hhandles, fun h => absurd h hhandles⟩
      · have hne : w.body σ ≠ .finished := by
          intro hb
          rw [hb] at hpumps
          cases hpumps
        rw [(step_moves hsound.linked h).body_of_not_acts hact hne]
        exact ⟨hpumps, fun h => absurd h hhandles⟩

/-! ## Runs -/

/-- In a run, every pump reads on until its socket ends or the client is stopped if and only if
the pumps digest what they handle in every step. Frames are taken in the order in which they
arrived. -/
theorem pump_reads_on_iff (cfg : Config) (es : List Event) (w : World)
    (hrun : Transition.Run (step cfg) Transition.always World.init es w) :
    ((∀ v e u, Transition.Along (step cfg) Transition.always World.init es w v e u →
        ReadsOn v e u) ↔
      ∀ v e u, Transition.Along (step cfg) Transition.always World.init es w v e u →
        Digests cfg v e) ∧
    ∀ c, Transition.outputs (step cfg) (taken c) World.init es ++ w.inbox c =
      Transition.outputs (step cfg) (arrived c) World.init es := by
  have hstep {v u : World} {e : Event}
      (h : Transition.Along (step cfg) Transition.always World.init es w v e u) :
      ReadsOn v e u ↔ Digests cfg v e := by
    obtain ⟨es₁, hv⟩ := h.before
    exact readsOn_iff (sound_of_run hv) h.enabled
  refine ⟨⟨fun h v e u halong => ?_, fun h v e u halong => ?_⟩, inbox_of_run hrun⟩
  · exact (hstep halong).mp (h v e u halong)
  · exact (hstep halong).mpr (h v e u halong)

/-- A client waits for the ack of a subscription, and the server sends an empty array. -/
def arrayFrameEvents : List Event :=
  startEvents ++
    [.call (.subscribe "ticker" none true), .sent 0, .frame 0 ⟨.json (.arr []), none⟩, .recv 1]

/-- The frames of a subscription are taken in order, and where the server sends an empty array a
pump does not read on, as it does not digest it. -/
theorem pump_reads_on_iff_subscribed :
    (∃ w, Transition.Run (step (.sample .kraken none)) Transition.always World.init
        subscribeEvents w ∧
      Transition.outputs (step (.sample .kraken none)) (taken 0) World.init subscribeEvents =
        [handshakeAck, subscribeAck 1 0]) ∧
    ∃ w, Transition.Run (step (.sample .kraken none)) Transition.always World.init
        (arrayFrameEvents ++ [.callbackEnd 1 .returned]) w ∧
      ¬∀ v e u, Transition.Along (step (.sample .kraken none)) Transition.always World.init
        (arrayFrameEvents ++ [.callbackEnd 1 .returned]) w v e u → ReadsOn v e u := by
  constructor
  · obtain ⟨w, hrun, hinbox, harrived⟩ :
        ∃ w, Transition.Run (step (.sample .kraken none)) Transition.always World.init
          subscribeEvents w ∧ w.inbox 0 = [] ∧
          Transition.outputs (step (.sample .kraken none)) (arrived 0) World.init
            subscribeEvents = [handshakeAck, subscribeAck 1 0] :=
      Transition.Run.exists_of_exec (by decide +kernel)
    have horder := (pump_reads_on_iff (.sample .kraken none) subscribeEvents w hrun).2 0
    rw [hinbox, List.append_nil, harrived] at horder
    exact ⟨w, hrun, horder⟩
  · obtain ⟨v, hrun, w, hstep, hb, hrunning⟩ :
        ∃ v, Transition.Run (step (.sample .kraken none)) Transition.always World.init
          arrayFrameEvents v ∧ ∃ w ∈ step (.sample .kraken none) v (.callbackEnd 1 .returned),
            v.body 1 = .supervise 0 (.inCallback 0 ⟨.json (.arr []), none⟩ .onMessage) ∧
            v.running = true := Transition.Run.exists_of_exec (by decide +kernel)
    have hall := hrun.snoc trivial hstep
    refine ⟨w, hall, ?_⟩
    rw [(pump_reads_on_iff (.sample .kraken none) _ w hall).1]
    intro hdigests
    have hlast := hdigests v _ w (.last hrun trivial hstep)
    obtain ⟨fields, hobject⟩ :=
      ((hlast.dispatches 1 0 0 _ _ (.inl rfl) hb hrunning).1 rfl).object
    cases hobject

/-- The array ends the pump of the open connection and fails the request. -/
theorem array_frame_ends_pump :
    ∃ w w', Transition.Run (step (.sample .kraken none)) Transition.always World.init
        arrayFrameEvents w ∧
      step (.sample .kraken none) w (.callbackEnd 1 .returned) = some w' ∧
      ¬ReadsOn w (.callbackEnd 1 .returned) w' ∧ w.sock 0 = .live ∧ w.running = true ∧
      w'.rpc.future 0 = some (.exception (.connectionLost (.py .attributeError))) := by
  obtain ⟨w, hrun, w', hstep, hlive, hrunning, hpumps, hleft, hfuture⟩ :
      ∃ w, Transition.Run (step (.sample .kraken none)) Transition.always World.init
        arrayFrameEvents w ∧ ∃ w' ∈ step (.sample .kraken none) w (.callbackEnd 1 .returned),
          w.sock 0 = .live ∧ w.running = true ∧ (w.body 1).pumps = some 0 ∧
          (w'.body 1).pumps = none ∧
          w'.rpc.future 0 = some (.exception (.connectionLost (.py .attributeError))) :=
    Transition.Run.exists_of_exec (by decide +kernel)
  refine ⟨w, w', hrun, hstep, fun hreads => ?_, hlive, hrunning, hfuture⟩
  have hgoes := (hreads 1 0 hpumps (not_ended_of_handles hstep hrunning (.inr (.inl rfl)))).1
  rw [hleft] at hgoes
  cases hgoes

end ProxyClient.Websocket
