import ProxyClient.Websocket.Calls
import ProxyClient.Websocket.Moves

/-!
# The correlator on its own

The counter, the map of pending requests, the futures and the calls form a small machine
of their own. `Rpc.Move` lists what the client ever does to it, and `Rpc.Inv` is what ties
its parts together. The invariant does not depend on what the server sends.
-/

namespace ProxyClient.Websocket

/-- What the client does to its pending requests. -/
inductive Rpc.Move (d : Dialect) (r : Rpc) : Rpc → Prop
  | draw (op : Operation) : Move d r (r.draw op)
  | register {call : Call} :
      call.op.requestFrame d (r.draw call.op).pending.counter = .ok (call.frame, call.key) →
      call.phase = .sending → Move d r ((r.draw call.op).register call)
  | await {k : ℕ} {deadline : ℚ} {call : Call} : r.calls[k]? = some call →
      call.phase = .sending → Move d r (r.await k deadline)
  | finish {k : ℕ} {call : Call} {outcome : Outcome} : r.calls[k]? = some call →
      (∀ f, outcome = .reply f → r.future k = some (.result f)) → Move d r (r.finish k outcome)
  | settle {f : Inbound} {key : Key} : d.slotOf f = some key →
      Move d r { r with pending := (r.pending.settle key f).2 }
  | failAll {exc : Exc} : exc.isConnectionError = true → Move d r (r.failAll exc)
  | cancelAll : Move d r r.cancelAll

/-- The parts of the correlator fit together: every future belongs to a call, and every key in the
map leads to the future of its call. -/
structure Rpc.Inv (d : Dialect) (r : Rpc) : Prop where
  /-- A call and its future have the same number. -/
  lockstep : r.calls.length = r.pending.heap.length
  /-- Every call was framed with a number that the counter has passed. -/
  framed : ∀ {k : ℕ} {call : Call}, r.calls[k]? = some call →
    ∃ n ≤ r.pending.counter, call.op.requestFrame d n = .ok (call.frame, call.key)
  /-- No two requests share a key. -/
  distinct : ∀ {i j : ℕ} {ci cj : Call}, r.calls[i]? = some ci → r.calls[j]? = some cj →
    ci.op.isRequest = true → cj.op.isRequest = true → ci.key = cj.key → i = j
  /-- A slot of the map leads to a call of that key that has not ended. -/
  slot : ∀ {key : Key} {k : ℕ}, r.pending.futures.lookup key = some k →
    ∃ call, r.calls[k]? = some call ∧ call.key = key ∧ call.phase.isEnded = false
  /-- A request that is still to be settled is registered. -/
  registered : ∀ {k : ℕ} {call : Call}, r.calls[k]? = some call → call.op.isRequest = true →
    call.phase.isEnded = false → r.future k = some .pending →
    r.pending.futures.lookup call.key = some k
  /-- A future was settled by a frame that belongs in the slot of its call. -/
  settled : ∀ {k : ℕ} {f : Inbound}, r.future k = some (.result f) →
    ∃ call, r.calls[k]? = some call ∧ d.slotOf f = some call.key
  /-- The exceptions of futures are `ConnectionError`s. -/
  failed : ∀ {k : ℕ} {exc : Exc}, r.future k = some (.exception exc) → exc.isConnectionError = true
  /-- A call that returned a frame had its future settled by it. -/
  replied : ∀ {k : ℕ} {call : Call} {f : Inbound}, r.calls[k]? = some call →
    call.phase = .ended (.reply f) → r.future k = some (.result f)

namespace Rpc

variable {d : Dialect} {r r' : Rpc} {k : ℕ} {call : Call}

/-! ## Keys -/

/-- A request is registered under the key of its number, a ping under the reserved key. -/
theorem key_of_framed {op : Operation} {n : ℕ} {frame : Fields} {key : Key}
    (h : op.requestFrame d n = .ok (frame, key)) :
    (op.isRequest = true ∧ key = d.keyOf n) ∨ (op = .ping ∧ key = pongKey) := by
  cases op with
  | request method params timeout idempotencyKey freshKey =>
    exact .inl ⟨rfl, Dialect.requestFrame_key h⟩
  | subscribe channel params persist => exact .inl ⟨rfl, Dialect.requestFrame_key h⟩
  | unsubscribe channel params => exact .inl ⟨rfl, Dialect.requestFrame_key h⟩
  | ping =>
    simp only [Operation.requestFrame, Except.ok.injEq, Prod.mk.injEq] at h
    exact .inr ⟨rfl, h.2.symm⟩

/-- Decimal numerals do not contain the letters of the reserved key. -/
theorem keyOf_ne_pongKey (d : Dialect) (n : ℕ) : d.keyOf n ≠ pongKey := by
  cases d with
  | kraken => simp [Dialect.keyOf, pongKey]
  | okx =>
    intro h
    have hrepr : Nat.repr n = "__pong__" := by simpa [Dialect.keyOf, pongKey] using h
    have hmem : '_' ∈ (Nat.repr n).toList := by
      rw [hrepr]
      decide
    rw [Nat.toList_repr] at hmem
    have hdigit := Nat.isDigit_of_mem_toDigits (by omega) (by omega) hmem
    exact absurd hdigit (by decide)

/-! ## Lists of calls -/

/-- An element of a list with one more is an old one or the new one. -/
theorem getElem?_concat_cases {α : Type*} {l : List α} {a b : α} {i : ℕ}
    (h : (l ++ [a])[i]? = some b) : l[i]? = some b ∨ (i = l.length ∧ b = a) := by
  rcases Nat.lt_trichotomy i l.length with hlt | heq | hgt
  · rw [List.getElem?_append_left hlt] at h
    exact .inl h
  · subst heq
    exact .inr ⟨rfl, by simpa using h.symm⟩
  · have hnone : (l ++ [a])[i]? = none := List.getElem?_eq_none (by simp; omega)
    rw [hnone] at h
    cases h

/-- An element of a list with one changed is an old one or the changed one. -/
theorem getElem?_modify_cases {α : Type*} {l : List α} {g : α → α} {b : α} {i j : ℕ}
    (h : (l.modify j g)[i]? = some b) :
    (i ≠ j ∧ l[i]? = some b) ∨ (i = j ∧ ∃ a, l[j]? = some a ∧ b = g a) := by
  by_cases hij : i = j
  · subst hij
    cases ha : l[i]? with
    | none => simp [ha] at h
    | some a => exact .inr ⟨rfl, a, rfl, by simpa [ha] using h.symm⟩
  · exact .inl ⟨hij, by simpa [Ne.symm hij] using h⟩

/-- A call after the phase of one call was changed. -/
theorem phase_cases {calls : List Call} {phase : Phase} {i : ℕ} {c : Call}
    (h : (calls.modify k (fun call => { call with phase := phase }))[i]? = some c) :
    ∃ c₀, calls[i]? = some c₀ ∧ c = { c₀ with phase := c.phase } ∧
      (i ≠ k → c = c₀) ∧ (i = k → c.phase = phase) := by
  rcases getElem?_modify_cases h with ⟨hne, hc⟩ | ⟨rfl, c₀, hc, rfl⟩
  · exact ⟨c, hc, rfl, fun _ => rfl, fun hik => absurd hik hne⟩
  · exact ⟨c₀, hc, rfl, fun hne => absurd rfl hne, fun _ => rfl⟩

/-! ## The end of a call -/

/-- Giving up a key leaves the future under it as it is. -/
@[simp] theorem heap_release (p : PendingRequests) (k : ℕ) (call : Call) :
    (Rpc.release p k call).heap = p.heap := by
  unfold Rpc.release
  split
  · unfold PendingRequests.discardPong
    split <;> rfl
  · rfl

/-- Abandoning a call leaves its key to be given up. -/
@[simp] theorem futures_abandon (p : PendingRequests) (k : ℕ) (call : Call) :
    (Rpc.abandon p k call).futures = p.futures := by
  unfold Rpc.abandon
  split <;> rfl

/-- A request number that was drawn is not drawn again, whatever becomes of its call. -/
@[simp] theorem counter_release (p : PendingRequests) (k : ℕ) (call : Call) :
    (Rpc.release (Rpc.abandon p k call) k call).counter = p.counter := by
  have habandon : (Rpc.abandon p k call).counter = p.counter := by
    unfold Rpc.abandon
    split <;> rfl
  unfold Rpc.release
  split
  · unfold PendingRequests.discardPong
    split <;> exact habandon
  · exact habandon

/-- The end of a call changes the phase of that call only. -/
theorem calls_finish (hk : r.calls[k]? = some call) (outcome : Outcome) :
    (r.finish k outcome).calls =
      r.calls.modify k (fun call => { call with phase := .ended outcome }) := by
  simp [Rpc.finish, hk]

/-- A call that ends leaves every other future alone and keeps an outcome of its own. -/
theorem future_finish {outcome : Outcome} {i : ℕ} {f : Future Inbound Exc}
    (h : (r.finish k outcome).future i = some f) :
    r.future i = some f ∨ (i = k ∧ r.future i = some .pending ∧ f = .cancelled) := by
  unfold Rpc.finish at h
  split at h
  · exact .inl h
  · simp only [Rpc.future, heap_release] at h
    unfold Rpc.abandon at h
    split at h
    · rcases Future.getElem?_complete_cases h with h | ⟨hik, h, hf⟩
      · exact .inl h
      · exact .inr ⟨hik, h, hf⟩
    · exact .inl h

/-- An outcome of a future outlasts the end of its call. -/
theorem future_finish_of_done {outcome : Outcome} {i : ℕ} {f : Future Inbound Exc}
    (h : r.future i = some f) (hdone : f.done = true) :
    (r.finish k outcome).future i = some f := by
  unfold Rpc.finish
  split
  · exact h
  · simp only [Rpc.future, heap_release]
    unfold Rpc.abandon
    split
    · exact Future.getElem?_complete_of_done k .cancelled h hdone
    · exact h

/-! ## What the moves keep -/

namespace Inv

/-- The key of a request is its own. -/
theorem unique (hinv : r.Inv d) {i j : ℕ} {ci cj : Call} (hi : r.calls[i]? = some ci)
    (hj : r.calls[j]? = some cj) (hreq : ci.op.isRequest = true) (hkey : ci.key = cj.key) :
    i = j := by
  obtain ⟨n, -, hci⟩ := hinv.framed hi
  obtain ⟨m, -, hcj⟩ := hinv.framed hj
  rcases key_of_framed hcj with ⟨hreq', -⟩ | ⟨-, hpong⟩
  · exact hinv.distinct hi hj hreq hreq' hkey
  · rcases key_of_framed hci with ⟨-, hkey'⟩ | ⟨hping, -⟩
    · rw [hkey', hpong] at hkey
      exact absurd hkey (keyOf_ne_pongKey d n)
    · rw [hping] at hreq
      cases hreq

/-- Without calls and futures there is nothing to go wrong. -/
theorem init (d : Dialect) : Rpc.Inv d {} where
  lockstep := rfl
  framed h := by simp at h
  distinct h := by simp at h
  slot h := by simp at h
  registered h := by simp at h
  settled h := by simp [Rpc.future] at h
  failed h := by simp [Rpc.future] at h
  replied h := by simp at h

/-- Drawing a request number allocates it to nobody yet. -/
theorem draw (hinv : r.Inv d) (op : Operation) : (r.draw op).Inv d := by
  unfold Rpc.draw
  split
  · exact
      { lockstep := hinv.lockstep
        framed := fun h => by
          obtain ⟨n, hn, hframe⟩ := hinv.framed h
          exact ⟨n, Nat.le_succ_of_le hn, hframe⟩
        distinct := hinv.distinct
        slot := hinv.slot
        registered := hinv.registered
        settled := hinv.settled
        failed := hinv.failed
        replied := hinv.replied }
  · exact hinv

/-- The number of a new request exceeds that of every call before it. -/
theorem key_ne_of_draw (hinv : r.Inv d) {i : ℕ} {ci : Call} (hi : r.calls[i]? = some ci)
    (hcall : call.op.requestFrame d (r.draw call.op).pending.counter = .ok (call.frame, call.key))
    (hreq : ci.op.isRequest = true ∨ call.op.isRequest = true) : ci.key ≠ call.key := by
  intro heq
  obtain ⟨n, hn, hci⟩ := hinv.framed hi
  rcases key_of_framed hci with ⟨-, hkey⟩ | ⟨hping, hkey⟩
  · rcases key_of_framed hcall with ⟨hnew, hkey'⟩ | ⟨-, hkey'⟩
    · have hinj := d.keyOf_injective (hkey.symm.trans (heq.trans hkey'))
      simp only [Rpc.draw, hnew, if_true, PendingRequests.nextId] at hinj
      omega
    · exact keyOf_ne_pongKey d n (hkey.symm.trans (heq.trans hkey'))
  · rcases key_of_framed hcall with ⟨-, hkey'⟩ | ⟨hping', -⟩
    · exact keyOf_ne_pongKey d _ (hkey'.symm.trans (heq.symm.trans hkey))
    · rw [hping, hping'] at hreq
      simp [Operation.isRequest] at hreq

/-- A call that begins is registered under the key of the number that was drawn for it, so no
pending call loses its key. -/
theorem register (hinv : r.Inv d)
    (hcall : call.op.requestFrame d (r.draw call.op).pending.counter = .ok (call.frame, call.key))
    (hphase : call.phase = .sending) : ((r.draw call.op).register call).Inv d := by
  have hcalls := r.calls_draw call.op
  have hheap := r.heap_draw call.op
  have hfutures := r.futures_draw call.op
  have hdraw := hinv.draw call.op
  have hne {i : ℕ} {ci : Call} (hi : r.calls[i]? = some ci)
      (hreq : ci.op.isRequest = true ∨ call.op.isRequest = true) : ci.key ≠ call.key :=
    hinv.key_ne_of_draw hi hcall hreq
  have hfuture {k : ℕ} {f : Future Inbound Exc} (hf : f ≠ .pending)
      (h : ((r.draw call.op).register call).future k = some f) : r.future k = some f := by
    simp only [Rpc.future, Rpc.register, PendingRequests.create, hheap] at h
    rcases getElem?_concat_cases h with h | ⟨-, h⟩
    · exact h
    · exact absurd h hf
  constructor
  case lockstep => simp [Rpc.register, PendingRequests.create, hinv.lockstep]
  case framed =>
    intro k c hk
    simp only [Rpc.register, hcalls] at hk
    rcases getElem?_concat_cases hk with hk | ⟨-, rfl⟩
    · exact hdraw.framed (hcalls ▸ hk)
    · exact ⟨_, Nat.le_refl _, hcall⟩
  case distinct =>
    intro i j ci cj hi hj hri hrj hkey
    simp only [Rpc.register, hcalls] at hi hj
    rcases getElem?_concat_cases hi with hi' | ⟨hi', rfl⟩
    · rcases getElem?_concat_cases hj with hj' | ⟨-, rfl⟩
      · exact hinv.distinct hi' hj' hri hrj hkey
      · exact absurd hkey (hne hi' (.inl hri))
    · rcases getElem?_concat_cases hj with hj' | ⟨hj', -⟩
      · exact absurd hkey.symm (hne hj' (.inl hrj))
      · rw [hi', hj']
  case slot =>
    intro key k hk
    simp only [Rpc.register, PendingRequests.create, hfutures, hheap, hcalls] at hk ⊢
    by_cases hkey : key = call.key
    · subst hkey
      rw [AList.lookup_insert] at hk
      cases hk
      refine ⟨call, ?_, rfl, by rw [hphase]; rfl⟩
      rw [← hinv.lockstep]
      simp
    · rw [AList.lookup_insert_ne hkey] at hk
      obtain ⟨c, hc, hck, hended⟩ := hinv.slot hk
      have hlt : k < r.calls.length := (List.getElem?_eq_some_iff.mp hc).1
      exact ⟨c, by rw [List.getElem?_append_left hlt, hc], hck, hended⟩
  case registered =>
    intro k c hk hreq hended hpending
    simp only [Rpc.register, PendingRequests.create, hfutures, hheap, hcalls, Rpc.future]
      at hk hpending ⊢
    rcases getElem?_concat_cases hk with hk | ⟨rfl, rfl⟩
    · have hlt : k < r.pending.heap.length := by
        rw [← hinv.lockstep]
        exact (List.getElem?_eq_some_iff.mp hk).1
      rw [List.getElem?_append_left hlt] at hpending
      rw [AList.lookup_insert_ne (hne hk (.inl hreq))]
      exact hinv.registered hk hreq hended hpending
    · rw [AList.lookup_insert, hinv.lockstep]
  case settled =>
    intro k f hf
    obtain ⟨c, hc, hslot⟩ := hinv.settled (hfuture nofun hf)
    have hlt : k < r.calls.length := (List.getElem?_eq_some_iff.mp hc).1
    refine ⟨c, ?_, hslot⟩
    simp only [Rpc.register, hcalls]
    rw [List.getElem?_append_left hlt, hc]
  case failed =>
    intro k exc hexc
    exact hinv.failed (hfuture nofun hexc)
  case replied =>
    intro k c f hk hc
    simp only [Rpc.register, hcalls] at hk
    rcases getElem?_concat_cases hk with hk | ⟨-, rfl⟩
    · have hf := hinv.replied hk hc
      have hlt : k < r.pending.heap.length := (List.getElem?_eq_some_iff.mp hf).1
      simp only [Rpc.future, Rpc.register, PendingRequests.create, hheap]
      rw [List.getElem?_append_left hlt]
      exact hf
    · rw [hphase] at hc
      cases hc

/-- Changing the phase of a call from one that has not ended to another. -/
theorem await (hinv : r.Inv d) {deadline : ℚ} (hk : r.calls[k]? = some call)
    (hphase : call.phase = .sending) : (r.await k deadline).Inv d := by
  have hold {i : ℕ} {c : Call} (h : (r.await k deadline).calls[i]? = some c) :
      ∃ c₀, r.calls[i]? = some c₀ ∧ c₀.op = c.op ∧ c₀.key = c.key ∧ c₀.frame = c.frame ∧
        c₀.phase.isEnded = c.phase.isEnded ∧ (c.phase.isEnded = true → c₀.phase = c.phase) := by
    obtain ⟨c₀, hc₀, hc, hne, heq⟩ := phase_cases h
    by_cases hik : i = k
    · subst hik
      have hcall : c₀ = call := Option.some.inj (hc₀.symm.trans hk)
      subst hcall
      refine ⟨c₀, hc₀, by rw [hc], by rw [hc], by rw [hc], ?_, ?_⟩
      · rw [heq rfl, hphase]
        rfl
      · rw [heq rfl]
        simp [Phase.isEnded]
    · obtain rfl := hne hik
      exact ⟨c, hc₀, rfl, rfl, rfl, rfl, fun _ => rfl⟩
  constructor
  case lockstep => simpa [Rpc.await] using hinv.lockstep
  case framed =>
    intro i c hi
    obtain ⟨c₀, hc₀, hop, hkey, hframe, -⟩ := hold hi
    rw [← hop, ← hkey, ← hframe]
    exact hinv.framed hc₀
  case distinct =>
    intro i j ci cj hi hj hri hrj hkey
    obtain ⟨c₁, hc₁, hop₁, hkey₁, -⟩ := hold hi
    obtain ⟨c₂, hc₂, hop₂, hkey₂, -⟩ := hold hj
    exact hinv.distinct hc₁ hc₂ (hop₁ ▸ hri) (hop₂ ▸ hrj) (by rw [hkey₁, hkey₂, hkey])
  case slot =>
    intro key i hi
    obtain ⟨c, hc, hkey, hended⟩ := hinv.slot hi
    by_cases hik : i = k
    · subst hik
      exact ⟨{ c with phase := .waiting deadline }, by simp [Rpc.await, hc], hkey, rfl⟩
    · exact ⟨c, by simpa [Rpc.await, Ne.symm hik] using hc, hkey, hended⟩
  case registered =>
    intro i c hi hreq hended hpending
    obtain ⟨c₀, hc₀, hop, hkey, -, hphase', -⟩ := hold hi
    rw [← hkey]
    exact hinv.registered hc₀ (hop ▸ hreq) (hphase'.trans hended) hpending
  case settled =>
    intro i f hf
    obtain ⟨c, hc, hslot⟩ := hinv.settled hf
    by_cases hik : i = k
    · subst hik
      exact ⟨{ c with phase := .waiting deadline }, by simp [Rpc.await, hc], hslot⟩
    · exact ⟨c, by simpa [Rpc.await, Ne.symm hik] using hc, hslot⟩
  case failed =>
    intro i exc hexc
    exact hinv.failed hexc
  case replied =>
    intro i c f hi hc
    obtain ⟨c₀, hc₀, -, -, -, -, hphase'⟩ := hold hi
    apply hinv.replied hc₀
    rw [hphase' (by rw [hc]; rfl), hc]

/-! ### The end of a call -/

/-- The slots that are left when a call has ended are those of other calls. -/
theorem lookup_finish (hinv : r.Inv d) {outcome : Outcome} {key : Key} {i : ℕ}
    (hk : r.calls[k]? = some call)
    (h : (r.finish k outcome).pending.futures.lookup key = some i) :
    r.pending.futures.lookup key = some i ∧ i ≠ k := by
  obtain ⟨n, -, hframed⟩ := hinv.framed hk
  -- a slot that leads to the call itself is the slot of its key
  have hself (hkey : r.pending.futures.lookup key = some k) : key = call.key := by
    obtain ⟨c, hc, hck, -⟩ := hinv.slot hkey
    rw [← hck, Option.some.inj (hc.symm.trans hk)]
  simp only [Rpc.finish, hk] at h
  unfold Rpc.release at h
  split at h
  · rename_i hping
    have hpong : call.key = pongKey := by
      rcases key_of_framed hframed with ⟨hreq, -⟩ | ⟨-, hkey⟩
      · rw [hping] at hreq
        cases hreq
      · exact hkey
    unfold PendingRequests.discardPong at h
    rw [futures_abandon] at h
    split at h
    · simp only [PendingRequests.discard, futures_abandon] at h
      by_cases hkey : key = pongKey
      · subst hkey
        rw [AList.lookup_erase] at h
        cases h
      · rw [AList.lookup_erase_ne hkey] at h
        refine ⟨h, ?_⟩
        rintro rfl
        exact hkey ((hself h).trans hpong)
    · rename_i hslot
      rw [futures_abandon] at h
      refine ⟨h, ?_⟩
      rintro rfl
      exact hslot (by rw [← hpong, ← hself h, h])
  · simp only [PendingRequests.discard, futures_abandon] at h
    by_cases hkey : key = call.key
    · subst hkey
      rw [AList.lookup_erase] at h
      cases h
    · rw [AList.lookup_erase_ne hkey] at h
      refine ⟨h, ?_⟩
      rintro rfl
      exact hkey (hself h)

/-- The end of a call removes no slot of another call. -/
theorem lookup_finish_of_ne (hinv : r.Inv d) {outcome : Outcome} {key : Key} {i : ℕ}
    (hk : r.calls[k]? = some call) (h : r.pending.futures.lookup key = some i) (hik : i ≠ k) :
    (r.finish k outcome).pending.futures.lookup key = some i := by
  simp only [Rpc.finish, hk]
  unfold Rpc.release
  split
  · unfold PendingRequests.discardPong
    rw [futures_abandon]
    split
    · rename_i hslot
      have hkey : key ≠ pongKey := by
        rintro rfl
        rw [h] at hslot
        exact hik (Option.some.inj hslot)
      simp only [PendingRequests.discard, futures_abandon]
      rw [AList.lookup_erase_ne hkey, h]
    · rw [futures_abandon, h]
  · rename_i hreq
    obtain ⟨c, hc, hck, -⟩ := hinv.slot h
    have hkey : key ≠ call.key := by
      intro heq
      have hisRequest : call.op.isRequest = true := by
        cases hop : call.op with
        | ping => exact absurd hop hreq
        | _ => rfl
      exact hik (hinv.unique hk hc hisRequest (heq.symm.trans hck.symm)).symm
    simp only [PendingRequests.discard, futures_abandon]
    rw [AList.lookup_erase_ne hkey, h]

/-- A call that ends gives its key up. What it returns is what its future holds. -/
theorem finish (hinv : r.Inv d) {outcome : Outcome} (hk : r.calls[k]? = some call)
    (hreply : ∀ f, outcome = .reply f → r.future k = some (.result f)) :
    (r.finish k outcome).Inv d := by
  have hcalls := calls_finish hk outcome
  have hold {i : ℕ} {c : Call} (h : (r.finish k outcome).calls[i]? = some c) :
      ∃ c₀, r.calls[i]? = some c₀ ∧ c₀.op = c.op ∧ c₀.key = c.key ∧ c₀.frame = c.frame ∧
        (i ≠ k → c = c₀) ∧ (i = k → c.phase = .ended outcome) := by
    rw [hcalls] at h
    obtain ⟨c₀, hc₀, hc, hne, heq⟩ := phase_cases h
    exact ⟨c₀, hc₀, by rw [hc], by rw [hc], by rw [hc], hne, heq⟩
  have hnew {i : ℕ} {c : Call} (h : r.calls[i]? = some c) :
      ∃ c', (r.finish k outcome).calls[i]? = some c' ∧ c'.key = c.key ∧ (i ≠ k → c' = c) := by
    rw [hcalls]
    by_cases hik : i = k
    · subst hik
      exact ⟨{ c with phase := .ended outcome }, by simp [h], rfl, fun hne => absurd rfl hne⟩
    · exact ⟨c, by simpa [Ne.symm hik] using h, rfl, fun _ => rfl⟩
  constructor
  case lockstep =>
    rw [hcalls]
    simp only [Rpc.finish, hk, heap_release, List.length_modify]
    unfold Rpc.abandon
    split <;> simp [hinv.lockstep]
  case framed =>
    intro i c hi
    obtain ⟨c₀, hc₀, hop, hkey, hframe, -⟩ := hold hi
    obtain ⟨n, hn, hframed⟩ := hinv.framed hc₀
    refine ⟨n, ?_, by rw [← hop, ← hkey, ← hframe]; exact hframed⟩
    simpa [Rpc.finish, hk] using hn
  case distinct =>
    intro i j ci cj hi hj hri hrj hkey
    obtain ⟨c₁, hc₁, hop₁, hkey₁, -⟩ := hold hi
    obtain ⟨c₂, hc₂, hop₂, hkey₂, -⟩ := hold hj
    exact hinv.distinct hc₁ hc₂ (hop₁ ▸ hri) (hop₂ ▸ hrj) (by rw [hkey₁, hkey₂, hkey])
  case slot =>
    intro key i hi
    obtain ⟨hlookup, hik⟩ := hinv.lookup_finish hk hi
    obtain ⟨c, hc, hkey, hc'⟩ := hinv.slot hlookup
    obtain ⟨c', hnew', -, hsame⟩ := hnew hc
    obtain rfl := hsame hik
    exact ⟨c', hnew', hkey, hc'⟩
  case registered =>
    intro i c hi hreq hc hpending
    obtain ⟨c₀, hc₀, -, -, -, hne, heq⟩ := hold hi
    have hik : i ≠ k := by
      intro hik
      rw [heq hik] at hc
      cases hc
    obtain rfl := hne hik
    have hpending₀ : r.future i = some .pending := by
      rcases future_finish hpending with h | ⟨h, -⟩
      · exact h
      · exact absurd h hik
    exact hinv.lookup_finish_of_ne hk (hinv.registered hc₀ hreq hc hpending₀) hik
  case settled =>
    intro i f hf
    have hf₀ : r.future i = some (.result f) := by
      rcases future_finish hf with h | ⟨-, -, h⟩
      · exact h
      · cases h
    obtain ⟨c, hc, hslot⟩ := hinv.settled hf₀
    obtain ⟨c', hnew', hkey, -⟩ := hnew hc
    exact ⟨c', hnew', by rw [hkey, hslot]⟩
  case failed =>
    intro i exc hexc
    rcases future_finish hexc with h | ⟨-, -, h⟩
    · exact hinv.failed h
    · cases h
  case replied =>
    intro i c f hi hc
    obtain ⟨c₀, hc₀, -, -, -, hne, heq⟩ := hold hi
    refine future_finish_of_done ?_ rfl
    by_cases hik : i = k
    · rw [heq hik] at hc
      rw [hik]
      exact hreply f (by simpa using hc)
    · obtain rfl := hne hik
      exact hinv.replied hc₀ hc

/-! ### Futures that get an outcome -/

/-- Moves that only complete futures and drop slots keep the invariant, as long as a dropped
slot leaves no pending future behind. -/
theorem of_heap (hinv : r.Inv d) {p : PendingRequests}
    (hlength : p.heap.length = r.pending.heap.length) (hcounter : p.counter = r.pending.counter)
    (hslot : ∀ {key i}, p.futures.lookup key = some i → r.pending.futures.lookup key = some i)
    (hpending : ∀ {i : ℕ}, p.heap[i]? = some .pending → r.future i = some .pending ∧
      ∀ key, r.pending.futures.lookup key = some i → p.futures.lookup key = some i)
    (hdone : ∀ {i : ℕ} {f : Future Inbound Exc}, r.future i = some f → f.done = true →
      p.heap[i]? = some f)
    (hresult : ∀ {i : ℕ} {f}, p.heap[i]? = some (.result f) → r.future i = some (.result f) ∨
      ∃ key, d.slotOf f = some key ∧ r.pending.futures.lookup key = some i)
    (hfailed : ∀ {i : ℕ} {exc}, p.heap[i]? = some (.exception exc) →
      r.future i = some (.exception exc) ∨ exc.isConnectionError = true) :
    Rpc.Inv d { r with pending := p } where
  lockstep := hinv.lockstep.trans hlength.symm
  framed h := by
    obtain ⟨n, hn, hframed⟩ := hinv.framed h
    exact ⟨n, hcounter ▸ hn, hframed⟩
  distinct := hinv.distinct
  slot h := hinv.slot (hslot h)
  registered h hreq hended hp :=
    (hpending hp).2 _ (hinv.registered h hreq hended (hpending hp).1)
  settled {i} {f} h := by
    rcases hresult h with h | ⟨key, hof, hlookup⟩
    · exact hinv.settled h
    · obtain ⟨c, hc, hkey, -⟩ := hinv.slot hlookup
      exact ⟨c, hc, by rw [hkey, hof]⟩
  failed h := by
    rcases hfailed h with h | h
    · exact hinv.failed h
    · exact h
  replied h hc := hdone (hinv.replied h hc) rfl

/-- The first message for a key settles the future that is pending under it, and no other. -/
theorem settle (hinv : r.Inv d) {f : Inbound} {key : Key} (hslot : d.slotOf f = some key) :
    Rpc.Inv d { r with pending := (r.pending.settle key f).2 } := by
  unfold PendingRequests.settle
  split
  · exact hinv
  · rename_i i hi
    refine hinv.of_heap (by simp) rfl id ?_ ?_ ?_ ?_
    · intro j hj
      rcases Future.getElem?_complete_cases hj with h | ⟨-, -, h⟩
      · exact ⟨h, fun _ hkey => hkey⟩
      · cases h
    · intro j g hj hdone
      exact Future.getElem?_complete_of_done i _ hj hdone
    · intro j g hj
      rcases Future.getElem?_complete_cases hj with h | ⟨hji, -, h⟩
      · exact .inl h
      · cases h
        exact .inr ⟨key, hslot, by rw [hji, hi]⟩
    · intro j exc hj
      rcases Future.getElem?_complete_cases hj with h | ⟨-, -, h⟩
      · exact .inl h
      · cases h

/-- Giving every registered future the same outcome leaves no pending future registered. -/
theorem not_registered_of_completeAll {p : PendingRequests} {outcome : Future Inbound Exc}
    {i : ℕ} (hdone : outcome.done = true)
    (h : (Future.completeAll p.heap p.waiting outcome)[i]? = some .pending) (key : Key) :
    p.futures.lookup key ≠ some i := by
  intro hkey
  have hwaiting : i ∈ p.waiting := PendingRequests.mem_waiting.mpr ⟨key, hkey⟩
  rcases Future.getElem?_completeAll_cases h with hold | ⟨-, hout⟩
  · rw [Future.getElem?_completeAll_of_mem hwaiting hold hdone] at h
    rw [Option.some.inj h] at hdone
    cases hdone
  · rw [← hout] at hdone
    cases hdone

/-- Giving every registered future an outcome that is no reply keeps the invariant. -/
theorem completeAll (hinv : r.Inv d) {outcome : Future Inbound Exc} (hdone : outcome.done = true)
    (hreply : ∀ f, outcome ≠ .result f)
    (hexc : ∀ exc, outcome = .exception exc → exc.isConnectionError = true) :
    Rpc.Inv d { r with pending := { r.pending with
      futures := ∅, heap := Future.completeAll r.pending.heap r.pending.waiting outcome } } := by
  refine hinv.of_heap (by simp) rfl ?_ ?_ ?_ ?_ ?_
  · intro key i h
    simp at h
  · intro i hi
    refine ⟨?_, fun key hkey => absurd hkey (not_registered_of_completeAll hdone hi key)⟩
    rcases Future.getElem?_completeAll_cases hi with h | ⟨h, -⟩ <;> exact h
  · intro i f hi hf
    exact Future.getElem?_completeAll_of_done _ _ hi hf
  · intro i f hi
    rcases Future.getElem?_completeAll_cases hi with h | ⟨-, h⟩
    · exact .inl h
    · exact absurd h.symm (hreply f)
  · intro i exc hi
    rcases Future.getElem?_completeAll_cases hi with h | ⟨-, h⟩
    · exact .inl h
    · exact .inr (hexc exc h.symm)

/-- When the connection is lost, the futures that are not settled fail with a `ConnectionError`. -/
theorem failAll (hinv : r.Inv d) {exc : Exc} (hexc : exc.isConnectionError = true) :
    (r.failAll exc).Inv d := by
  apply hinv.completeAll rfl (by simp)
  intro exc' h
  obtain rfl := Future.exception.inj h
  exact hexc

/-- When the client stops, they are cancelled instead. -/
theorem cancelAll (hinv : r.Inv d) : r.cancelAll.Inv d :=
  hinv.completeAll rfl (by simp) (by simp)

/-- Every move of the correlator keeps the invariant. -/
theorem move (hinv : r.Inv d) (h : Rpc.Move d r r') : r'.Inv d := by
  cases h with
  | draw op => exact hinv.draw op
  | register hcall hphase => exact hinv.register hcall hphase
  | await hk hphase => exact hinv.await hk hphase
  | finish hk hreply => exact hinv.finish hk hreply
  | settle hslot => exact hinv.settle hslot
  | failAll hexc => exact hinv.failAll hexc
  | cancelAll => exact hinv.cancelAll

end Inv

/-! ## Calls and futures over time -/

/-- A registered call brings a pending future and leaves the others alone. -/
theorem future_register {f : Future Inbound Exc}
    (h : ((r.draw call.op).register call).future k = some f) :
    r.future k = some f ∨ (k = r.pending.heap.length ∧ f = .pending) := by
  simp only [Rpc.future, Rpc.register, PendingRequests.create, heap_draw] at h
  exact getElem?_concat_cases h

/-- A future that has an outcome keeps it. -/
theorem Move.future_done (h : Rpc.Move d r r') {f : Future Inbound Exc}
    (hf : r.future k = some f) (hdone : f.done = true) : r'.future k = some f := by
  cases h with
  | draw op => simpa [Rpc.future] using hf
  | @register call _ _ =>
    have hlt : k < r.pending.heap.length := (List.getElem?_eq_some_iff.mp hf).1
    simp only [Rpc.future, Rpc.register, PendingRequests.create, heap_draw]
    rw [List.getElem?_append_left hlt]
    exact hf
  | await => exact hf
  | finish => exact future_finish_of_done hf hdone
  | settle =>
    simp only [Rpc.future, PendingRequests.settle]
    split
    · exact hf
    · exact Future.getElem?_complete_of_done _ _ hf hdone
  | failAll => exact Future.getElem?_completeAll_of_done _ _ hf hdone
  | cancelAll => exact Future.getElem?_completeAll_of_done _ _ hf hdone

/-- What is fixed about a call when it begins. -/
structure Same (call call' : Call) : Prop where
  op : call'.op = call.op
  owner : call'.owner = call.owner
  key : call'.key = call.key
  frame : call'.frame = call.frame
  conn : call'.conn = call.conn

/-- A call is the same as itself. -/
theorem Same.refl (call : Call) : Same call call := ⟨rfl, rfl, rfl, rfl, rfl⟩

/-- What is fixed when a call begins stays fixed. -/
theorem Same.trans {a b c : Call} (h : Same a b) (h' : Same b c) : Same a c :=
  ⟨h'.op.trans h.op, h'.owner.trans h.owner, h'.key.trans h.key, h'.frame.trans h.frame,
    h'.conn.trans h.conn⟩

/-- Every call of one state is a call of another. -/
def Extends (r r' : Rpc) : Prop :=
  ∀ (k : ℕ) (call : Call), r.calls[k]? = some call →
    ∃ call', r'.calls[k]? = some call' ∧ Same call call'

/-- Every state extends itself. -/
theorem Extends.refl (r : Rpc) : Extends r r := fun _ _ h => ⟨_, h, .refl _⟩

/-- Calls are never lost, over any number of moves. -/
theorem Extends.trans {r₁ r₂ r₃ : Rpc} (h : Extends r₁ r₂) (h' : Extends r₂ r₃) :
    Extends r₁ r₃ := by
  intro k call hk
  obtain ⟨c₂, hc₂, hsame₂⟩ := h k call hk
  obtain ⟨c₃, hc₃, hsame₃⟩ := h' k c₂ hc₂
  exact ⟨c₃, hc₃, hsame₂.trans hsame₃⟩

/-- Changing the phase of a call changes nothing that was fixed when it began. -/
theorem Extends.of_phase {phase : Phase} (h : r'.calls =
    r.calls.modify k (fun call => { call with phase := phase })) : Extends r r' := by
  intro i call hi
  by_cases hik : i = k
  · subst hik
    exact ⟨{ call with phase := phase }, by rw [h]; simp [hi], rfl, rfl, rfl, rfl, rfl⟩
  · exact ⟨call, by rw [h]; simpa [Ne.symm hik] using hi, .refl call⟩

/-- Calls are added and never forgotten, and what was fixed when they began stays fixed. -/
theorem Move.extends (h : Rpc.Move d r r') : Extends r r' := by
  cases h with
  | draw op =>
    intro k call hk
    exact ⟨call, by rwa [calls_draw], .refl call⟩
  | @register new _ _ =>
    intro k call hk
    have hlt := (List.getElem?_eq_some_iff.mp hk).1
    refine ⟨call, ?_, .refl call⟩
    simp only [Rpc.register, calls_draw]
    rw [List.getElem?_append_left hlt, hk]
  | await => exact .of_phase rfl
  | finish hk _ => exact .of_phase (calls_finish hk _)
  | settle => exact .refl _
  | failAll => exact .refl _
  | cancelAll => exact .refl _

/-- A call that has not ended waits for its future. -/
structure Waits (r : Rpc) (k : ℕ) : Prop where
  call : ∃ call ∈ r.calls[k]?, call.phase.isEnded = false
  pending : r.future k = some .pending

/-- A call that waits after a move waited before it, or has just begun. -/
theorem Move.waits (h : Rpc.Move d r r') (hinv : r.Inv d) (hk : r'.Waits k) :
    r.Waits k ∨ k = r.calls.length := by
  obtain ⟨⟨call, hcall, hended⟩, hpending⟩ := hk
  cases h with
  | draw op =>
    rw [calls_draw] at hcall
    exact .inl ⟨⟨call, hcall, hended⟩, by simpa [Rpc.future] using hpending⟩
  | @register new _ _ =>
    simp only [Rpc.register, calls_draw] at hcall
    rcases getElem?_concat_cases hcall with hold | ⟨hk, -⟩
    · rcases future_register hpending with hpending | ⟨hk, -⟩
      · exact .inl ⟨⟨call, hold, hended⟩, hpending⟩
      · exact .inr (hk.trans hinv.lockstep.symm)
    · exact .inr hk
  | @await j deadline old hj hphase =>
    rcases getElem?_modify_cases hcall with ⟨-, hold⟩ | ⟨rfl, c, hc, rfl⟩
    · exact .inl ⟨⟨call, hold, hended⟩, hpending⟩
    · obtain rfl := Option.some.inj (hc.symm.trans hj)
      exact .inl ⟨⟨c, hc, by rw [hphase]; rfl⟩, hpending⟩
  | @finish j old outcome hj hreply =>
    rw [calls_finish hj] at hcall
    rcases getElem?_modify_cases hcall with ⟨-, hold⟩ | ⟨rfl, c, hc, rfl⟩
    · rcases future_finish hpending with hpending | ⟨-, -, hout⟩
      · exact .inl ⟨⟨call, hold, hended⟩, hpending⟩
      · cases hout
    · cases hended
  | @settle g key hslot =>
    refine .inl ⟨⟨call, hcall, hended⟩, ?_⟩
    simp only [Rpc.future, PendingRequests.settle] at hpending
    split at hpending
    · exact hpending
    · rcases Future.getElem?_complete_cases hpending with hold | ⟨-, hold, -⟩
      · exact hold
      · exact hold
  | failAll =>
    refine .inl ⟨⟨call, hcall, hended⟩, ?_⟩
    rcases Future.getElem?_completeAll_cases hpending with hold | ⟨hold, -⟩
    · exact hold
    · exact hold
  | cancelAll =>
    refine .inl ⟨⟨call, hcall, hended⟩, ?_⟩
    rcases Future.getElem?_completeAll_cases hpending with hold | ⟨hold, -⟩
    · exact hold
    · exact hold

/-! ## Chains of moves -/

/-- A chain of moves of the correlator, as one step of the client makes them. -/
abbrev Moves (d : Dialect) : Rpc → Rpc → Prop := Relation.ReflTransGen (Move d)

/-- A chain of moves of the correlator keeps the invariant. -/
theorem Inv.moves (hinv : r.Inv d) (h : Moves d r r') : r'.Inv d := by
  induction h with
  | refl => exact hinv
  | tail _ hlast ih => exact ih.move hlast

/-- And it loses no call. -/
theorem Moves.extends (h : Moves d r r') : Extends r r' := by
  induction h with
  | refl => exact .refl r
  | tail _ hlast ih => exact ih.trans hlast.extends

/-- And it leaves a future that is done as it is: a reply that came first is final. -/
theorem Moves.future_done (h : Moves d r r') {f : Future Inbound Exc}
    (hf : r.future k = some f) (hdone : f.done = true) : r'.future k = some f := by
  induction h with
  | refl => exact hf
  | tail _ hlast ih => exact hlast.future_done ih hdone

end Rpc

end ProxyClient.Websocket
