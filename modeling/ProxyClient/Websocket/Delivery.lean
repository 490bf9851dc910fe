import ProxyClient.Websocket.Inline

/-!
# Which frames reach the handlers

`resolve` keeps a frame from the handlers when its slot is taken. A reply whose caller has
gone and a pong that nobody waits for find their slot empty and are delivered like market
data.
-/

namespace ProxyClient.Websocket

variable {cfg : Config} {w w' : World} {e : Event} {d : Dialect} {f : Inbound}

/-- The frame that a handler of a task works on. -/
def Body.handling : Body → Option Inbound
  | .supervise _ (.inCallback _ f (.handler _ _ _)) => some f
  | _ => none

/-- A frame of the client's own traffic: a pong, or a reply whose correlation key the
client's counter issued. -/
def OwnFrame (cfg : Config) (w : World) (f : Inbound) : Prop :=
  Fields.get f.fields "event" = .str "pong" ∨
    ∃ n, 1 ≤ n ∧ n ≤ w.rpc.pending.counter ∧
      (cfg.dialect.responseKey f.fields).key? = some (cfg.dialect.keyOf n)

/-- A waiter is registered in the slot of a frame. -/
def SlotTaken (cfg : Config) (w : World) (f : Inbound) : Prop :=
  ∃ key i, cfg.dialect.slotOf f = some key ∧ w.rpc.pending.futures.lookup key = some i

/-- A step ends `on_message` for a frame, and a handler works on the frame after it. -/
def PassesOn (w : World) (e : Event) (w' : World) (f : Inbound) : Prop :=
  ∃ σ c, Resolves w e σ c f ∧ (w'.body σ).handling = some f

/-- Every frame of the client's own traffic has a slot. -/
theorem OwnFrame.slot (h : OwnFrame cfg w f) : ∃ key, cfg.dialect.slotOf f = some key := by
  unfold Dialect.slotOf
  by_cases hpong : Fields.get f.fields "event" = .str "pong"
  · exact ⟨pongKey, if_pos hpong⟩
  · rcases h with h | ⟨n, -, -, hkey⟩
    · exact absurd h hpong
    · have hnull : cfg.dialect.responseKey f.fields ≠ .null := by
        intro hnull
        rw [hnull] at hkey
        cases hd : cfg.dialect <;> rw [hd] at hkey <;> simp [Json.key?, Dialect.keyOf] at hkey
      exact ⟨_, by rw [if_neg hpong, if_neg hnull, hkey]⟩

/-- A frame whose slot is empty is not consumed. -/
theorem PendingRequests.resolve_of_empty {p : PendingRequests} {key : Key}
    (hslot : d.slotOf f = some key) (hlookup : p.futures.lookup key = none) :
    p.resolve f (d.responseKey f.fields) = .ok (false, p) := by
  have hmem : key ∉ p.futures := AList.lookup_eq_none.mp hlookup
  unfold Dialect.slotOf at hslot
  unfold PendingRequests.resolve
  split at hslot
  · rename_i hpong
    cases hslot
    simp [hpong, PendingRequests.settle, hlookup]
  · rename_i hpong
    split at hslot
    · cases hslot
    · rename_i hnull
      simp [hpong, hnull, hslot, hmem]

/-! ## Where a task stands after a dispatch -/

/-- A task whose pump returned works on no frame. -/
theorem handling_pumpReturned (cfg : Config) (w : World) (σ a : ℕ) (exc : Option Exc) :
    ((w.pumpReturned cfg σ a exc).body σ).handling = none :=
  World.seen_pumpReturned cfg w σ a exc rfl (fun _ _ => rfl) (fun _ _ _ => rfl)

/-- A task that reads has no frame in a handler. -/
theorem handling_read (cfg : Config) (w : World) (σ a c : ℕ) :
    ((w.read cfg σ a c).body σ).handling = none := by
  unfold World.read
  split
  · exact handling_pumpReturned cfg w σ a _
  · exact World.seen_setBody rfl rfl

/-- A frame is handed to a handler exactly when there is a handler to call. -/
theorem handling_deliver {σ a c : ℕ} (hlt : σ < w.tasks.length) :
    ((w.deliver cfg σ a c f).body σ).handling = some f ↔ w.Listening cfg f := by
  have hread : ((w.read cfg σ a c).body σ).handling ≠ some f := by
    rw [handling_read]
    simp
  unfold World.deliver
  simp only
  split
  · rename_i hheartbeat
    exact ⟨fun h => absurd h hread, fun h => absurd hheartbeat h.wanted⟩
  · rename_i hwanted
    split
    · rename_i hexc
      refine ⟨fun h => ?_, fun h => ?_⟩
      · rw [handling_pumpReturned] at h
        cases h
      · obtain ⟨hs, hof, -⟩ := h.registered
        rw [hexc] at hof
        cases hof
    · rename_i hs hof
      unfold World.runHandlers
      split
      · rw [World.body_setBody_self _ hlt]
        exact ⟨fun _ => ⟨hwanted, _, hof, .inl (by simp)⟩, fun _ => rfl⟩
      · simp only [if_true]
        split
        · rename_i hwild
          rw [World.body_setBody_self _ hlt]
          exact ⟨fun _ => ⟨hwanted, _, hof, .inr (by simp [hwild])⟩, fun _ => rfl⟩
        · rename_i hwild
          refine ⟨fun h => absurd h hread, fun h => ?_⟩
          obtain ⟨hs', hof', hne | hne⟩ := h.registered
          · rw [hof] at hof'
            cases hof'
            exact absurd rfl hne
          · exact absurd hwild hne

/-- A frame with a slot is passed on exactly when its slot is empty and there is a handler. -/
theorem Resolves.passesOn_iff {σ c : ℕ} {key : Key} (hres : Resolves w e σ c f)
    (hstep : step cfg w e = some w') (hslot : cfg.dialect.slotOf f = some key) :
    (w'.body σ).handling = some f ↔ ¬SlotTaken cfg w f ∧ w.Listening cfg f := by
  obtain ⟨a, hb, rfl⟩ := hres.dispatch hstep
  have hlt : σ < w.tasks.length := World.lt_of_body_ne (by rw [hb]; simp)
  cases hlookup : w.rpc.pending.futures.lookup key with
  | some i =>
    rw [dispatch_of_slot hslot hlookup, handling_read]
    refine ⟨fun h => (by cases h), fun h => absurd ⟨key, i, hslot, hlookup⟩ h.1⟩
  | none =>
    obtain ⟨fields, hraw⟩ := Dialect.raw_of_slotOf hslot
    have hresolve := PendingRequests.resolve_of_empty hslot hlookup
    set w₁ : World :=
      w.modifyConn c (fun conn => { conn with resolved := conn.resolved ++ [f] }) with hw₁
    have hlt₁ : σ < w₁.tasks.length := hlt
    have hdispatch : w.dispatch cfg σ a c f = w₁.deliver cfg σ a c f := by
      unfold World.dispatch
      simp only [hraw, World.modifyConn_rpc, hresolve]
      rfl
    have hempty : ¬SlotTaken cfg w f := by
      rintro ⟨key', i, hslot', hlookup'⟩
      rw [hslot] at hslot'
      cases hslot'
      rw [hlookup] at hlookup'
      cases hlookup'
    rw [hdispatch, handling_deliver hlt₁]
    exact ⟨fun h => ⟨hempty, h.wanted, h.registered⟩, fun h => ⟨h.2.wanted, h.2.registered⟩⟩

/-- In a run, no frame of the client's own traffic is passed on to a handler if and only if
each such frame, at its dispatch, finds its slot taken or no handler to call. -/
theorem own_frames_consumed_iff (cfg : Config) (es : List Event) (w : World) :
    (∀ t e u f, Transition.Along (step cfg) Transition.always World.init es w t e u →
      OwnFrame cfg t f → ¬PassesOn t e u f) ↔
    ∀ t e u f, Transition.Along (step cfg) Transition.always World.init es w t e u →
      OwnFrame cfg t f → (∃ σ c, Resolves t e σ c f) →
        SlotTaken cfg t f ∨ ¬t.Listening cfg f := by
  constructor
  · rintro h t e u f halong hown ⟨σ, c, hres⟩
    obtain ⟨key, hslot⟩ := hown.slot
    by_contra hnot
    obtain ⟨hempty, hlisten⟩ := not_or.mp hnot
    have hhandling := (hres.passesOn_iff halong.enabled hslot).mpr ⟨hempty, not_not.mp hlisten⟩
    exact h t e u f halong hown ⟨σ, c, hres, hhandling⟩
  · rintro h t e u f halong hown ⟨σ, c, hres, hhandling⟩
    obtain ⟨key, hslot⟩ := hown.slot
    obtain ⟨hempty, hlisten⟩ := (hres.passesOn_iff halong.enabled hslot).mp hhandling
    rcases h t e u f halong hown ⟨σ, c, hres⟩ with htaken | hdeaf
    · exact hempty htaken
    · exact hdeaf hlisten

/-- The ack of a `subscribe()` arrives after its timeout, with a handler registered for every
message. -/
def lateReplyEvents : List Event :=
  startEvents ++
    [.addHandler "*" 0, .call (.subscribe "ticker" none true), .sent 0, .tick 10, .timeout 0,
      .frame 0 (subscribeAck 1 0), .recv 1]

/-- The late ack is passed on to the handler. -/
theorem late_reply_passed_on :
    ∃ t u, Transition.Along (step (.sample .kraken none)) Transition.always World.init
        (lateReplyEvents ++ [.callbackEnd 1 .returned]) u t (.callbackEnd 1 .returned) u ∧
      OwnFrame (.sample .kraken none) t (subscribeAck 1 0) ∧
      PassesOn t (.callbackEnd 1 .returned) u (subscribeAck 1 0) := by
  obtain ⟨t, hrun, u, hu, hbody, hcounter, hhandling⟩ :
      ∃ t, Transition.Run (step (.sample .kraken none)) Transition.always World.init
        lateReplyEvents t ∧ ∃ u ∈ step (.sample .kraken none) t (.callbackEnd 1 .returned),
          t.body 1 = .supervise 0 (.inCallback 0 (subscribeAck 1 0) .onMessage) ∧
          t.rpc.pending.counter = 1 ∧ (u.body 1).handling = some (subscribeAck 1 0) :=
    Transition.Run.exists_of_exec (by decide +kernel)
  refine ⟨t, u, .last hrun trivial hu, .inr ⟨1, Nat.le_refl 1, ?_, by decide +kernel⟩,
    1, 0, ⟨.inl rfl, 0, hbody⟩, hhandling⟩
  omega

end ProxyClient.Websocket
