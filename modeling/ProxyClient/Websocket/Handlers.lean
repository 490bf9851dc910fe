import ProxyClient.Multimap
import ProxyClient.Websocket.Delivery

/-!
# Handlers

`add_handler`, `remove_handler` and `clear_handlers` keep a dict of lists, and `_dispatch` calls
`on_message` and the handlers of a frame one after the other. The ideal client below knows the
live registrations only. The real one differs from it in two places: a list that
`remove_handler` has emptied still counts as a registration for the heartbeat frames of the
venue, and a handler for the channel with the empty name is never called.
-/

namespace ProxyClient.Websocket

/-! ## The registry -/

/-- `_handlers`, the handlers of every channel in the order in which they were added. -/
abbrev Handlers := Multimap String ℕ

/-- A call of one of the methods that change the registry. -/
inductive HandlerCall
  | add (channel : String) (h : ℕ)
  | remove (channel : String) (h : ℕ)
  | clear (channel : Option String)

/-- `add_handler`, `remove_handler` and `clear_handlers`, as functions of the registry. -/
def HandlerCall.apply (hs : Handlers) : HandlerCall → Handlers
  | add channel h => hs.append channel h
  | remove channel h => hs.remove channel h
  | clear none => ∅
  | clear (some channel) => hs.erase channel

/-- The handlers under a channel of a frame, or `TypeError` for one that cannot be hashed. -/
def Handlers.under (hs : Handlers) (channel : Json) : Except PyError (List ℕ) :=
  if channel.truthy then
    match channel.key? with
    | none => .error .typeError
    | some (.str name) => .ok (hs.get name)
    | some _ => .ok []
  else .ok []

/-! ## Callbacks -/

/-- A callback that is run for a frame. -/
inductive Ran
  | onMessage (f : Inbound)
  | handler (h : ℕ) (f : Inbound)
  deriving DecidableEq

/-- The callbacks of the application, and which of their calls raise. -/
structure Callbacks (E : Type*) where
  /-- The exception that the `n`-th run of `on_message` or a handler raises, if it does. -/
  outcome : ℕ → Option E
  /-- `_on_error`, with the exception that its `n`-th run raises, if it does. -/
  onError : Option (ℕ → Option E)

/-- What the application sees of the dispatch. -/
structure Log (E : Type*) where
  /-- The runs of `on_message` and of the handlers, oldest first. -/
  ran : List Ran := []
  /-- The exceptions that `_on_error` was called with, oldest first. -/
  reported : List E := []

section Dispatch

variable {E : Type*}

/-- Run a callback, which may raise an exception of its own. -/
def Callbacks.invoke (cb : Callbacks E) (log : Log E) (r : Ran) : Except E Unit × Log E :=
  let result := match cb.outcome log.ran.length with
    | none => .ok ()
    | some exc => .error exc
  (result, { log with ran := log.ran ++ [r] })

/-- Call `_on_error` with an exception, if the application gave one. -/
def Callbacks.report (raises : ℕ → Option E) (log : Log E) (exc : E) : Except E Unit × Log E :=
  let result := match raises log.reported.length with
    | none => .ok ()
    | some exc => .error exc
  (result, { log with reported := log.reported ++ [exc] })

/-- `_handle_callback_error`: the exception is reported, and one of `_on_error` itself is
swallowed. -/
def handleCallbackError (cb : Callbacks E) (log : Log E) (exc : E) : Log E :=
  match cb.onError with
  | some raises =>
    match Callbacks.report raises log exc with
    | (.ok _, log) => log
    -- it is logged
    | (.error _, log) => log
  | none => log

/-- `_call_handler`. The call of `on_message` in `_dispatch` is guarded in the same way. -/
def callHandler (cb : Callbacks E) (log : Log E) (r : Ran) : Log E :=
  match cb.invoke log r with
  | (.ok _, log) => log
  | (.error exc, log) => handleCallbackError cb log exc

/-- Call the handlers of a list one after the other, whatever they raise. -/
def callHandlers (cb : Callbacks E) (f : Inbound) (log : Log E) (handlers : List ℕ) : Log E :=
  handlers.foldl (fun log h => callHandler cb log (.handler h f)) log

/-- `_deliver`: the handlers of the channel come before those of `'*'`. -/
def deliver (d : Dialect) (cb : Callbacks E) (hs : Handlers) (f : Inbound) (log : Log E) :
    Except PyError (Log E) :=
  let channel := d.channelOf f.fields
  if channel = .str "heartbeat" ∧ "heartbeat" ∉ hs then .ok log
  else
    match hs.under channel with
    | .error e => .error e
    | .ok handlers => .ok (callHandlers cb f (callHandlers cb f log handlers) (hs.get "*"))

/-- `_dispatch`: `on_message` sees every frame, and the handlers those that are no replies. -/
def dispatch (d : Dialect) (cb : Callbacks E) (pending : PendingRequests) (hs : Handlers)
    (f : Inbound) (log : Log E) : Except PyError (Log E) :=
  let log := callHandler cb log (.onMessage f)
  match f.raw with
  | .json (.obj _) =>
    match pending.resolve f (d.responseKey f.fields) with
    | .error e => .error e
    | .ok (true, _) => .ok log
    | .ok (false, _) => deliver d cb hs f log
  | _ => .error .attributeError

end Dispatch

/-! ## Histories -/

/-- A frame that no request waits for, with the requests in flight when it arrives. Its channel
is absent, or a name other than the wildcard. -/
structure Frame (d : Dialect) where
  inbound : Inbound
  pending : PendingRequests
  object : ∃ fields, inbound.raw = .json (.obj fields)
  uncorrelated : ∃ p, pending.resolve inbound (d.responseKey inbound.fields) = .ok (false, p)
  channel : d.channelOf inbound.fields = .null ∨
    ∃ name, d.channelOf inbound.fields = .str name ∧ name ≠ "*"

/-- What happens to the dispatcher: the registry changes, or a frame is dispatched. -/
inductive Occurs (d : Dialect)
  | register (call : HandlerCall)
  | frame (x : Frame d)

/-- The registry and what the application has seen. -/
structure Dispatcher (E : Type*) where
  handlers : Handlers := ∅
  log : Log E := {}

/-- One thing happens. An exception out of `_dispatch` ends the read loop. -/
def Dispatcher.occur {E : Type*} {d : Dialect} (cb : Callbacks E) (s : Dispatcher E) :
    Occurs d → Except PyError (Dispatcher E)
  | .register call => .ok { s with handlers := call.apply s.handlers }
  | .frame x =>
    (dispatch d cb x.pending s.handlers x.inbound s.log).map (fun log => { s with log := log })

/-- A whole history, from the empty registry on. It stops at the first exception that escapes. -/
def play {E : Type*} {d : Dialect} (cb : Callbacks E) (history : List (Occurs d)) :
    Except PyError (Dispatcher E) :=
  history.foldlM (Dispatcher.occur cb) {}

/-! ## The ideal client -/

/-- A registration: a channel and a handler. -/
abbrev Registration := String × ℕ

/-- The registrations that are live after a call. -/
def HandlerCall.live (live : List Registration) : HandlerCall → List Registration
  | add channel h => live ++ [(channel, h)]
  | remove channel h => live.erase (channel, h)
  | clear none => []
  | clear (some channel) => live.filter (fun registration => registration.1 ≠ channel)

/-- The live registrations and the callbacks that should have run. -/
structure Ideal where
  live : List Registration := []
  ran : List Ran := []

/-- The handlers that are live under the channel of a frame. -/
def liveUnder (live : List Registration) : Json → List ℕ
  | .str name => Multimap.valuesOf live name
  | _ => []

/-- The handlers that a frame should be delivered to. -/
def recipients (d : Dialect) (live : List Registration) (f : Inbound) : List ℕ :=
  let channel := d.channelOf f.fields
  if channel = .str "heartbeat" ∧ Multimap.valuesOf live "heartbeat" = [] then []
  else liveUnder live channel ++ Multimap.valuesOf live "*"

/-- The callbacks of a frame: `on_message`, and each of the handlers. -/
def callbacksOf (f : Inbound) (handlers : List ℕ) : List Ran :=
  .onMessage f :: handlers.map (.handler · f)

/-- One thing happens to the ideal client. -/
def Ideal.occur {d : Dialect} (s : Ideal) : Occurs d → Ideal
  | .register call => { s with live := call.live s.live }
  | .frame x => { s with ran := s.ran ++ callbacksOf x.inbound (recipients d s.live x.inbound) }

/-- What a history makes of the ideal client. -/
def ideal {d : Dialect} (history : List (Occurs d)) : Ideal := history.foldl Ideal.occur {}

/-- The exceptions that `_on_error` should be called with, once each. -/
def Callbacks.reports {E : Type*} (cb : Callbacks E) (runs : ℕ) : List E :=
  if cb.onError.isSome then (List.range runs).filterMap cb.outcome else []

/-- Delivery is exact and isolated throughout a history. -/
def Delivers {E : Type*} {d : Dialect} (cb : Callbacks E) (history : List (Occurs d)) : Prop :=
  ∀ past, past <+: history → ∃ s, play cb past = .ok s ∧ s.log.ran = (ideal past).ran ∧
    s.log.reported = cb.reports s.log.ran.length

/-! ## What a dispatch does -/

section Dispatch

variable {E : Type*} {d : Dialect} {cb : Callbacks E} {log : Log E} {f : Inbound} {hs : Handlers}

/-- Every exception of the callbacks was reported once, if there is anybody to report it to. -/
def Log.Exact (cb : Callbacks E) (log : Log E) : Prop :=
  log.reported = cb.reports log.ran.length

/-- One callback more can raise one exception more. -/
theorem reports_succ (cb : Callbacks E) (n : ℕ) :
    cb.reports (n + 1) =
      cb.reports n ++ if cb.onError.isSome then (cb.outcome n).toList else [] := by
  unfold Callbacks.reports
  split
  · rw [List.range_succ, List.filterMap_append]
    cases hn : cb.outcome n <;> simp [hn]
  · rfl

/-- `_handle_callback_error` reports the exception if there is an `_on_error`, and never raises. -/
theorem handleCallbackError_eq (cb : Callbacks E) (log : Log E) (exc : E) :
    handleCallbackError cb log exc =
      { log with reported := log.reported ++ if cb.onError.isSome then [exc] else [] } := by
  unfold handleCallbackError
  cases cb.onError with
  | none => simp
  | some raises =>
    cases hraises : raises log.reported.length <;> simp [Callbacks.report, hraises]

/-- A callback is run once, and its exception is reported once. -/
theorem callHandler_eq (cb : Callbacks E) (log : Log E) (r : Ran) :
    callHandler cb log r =
      { ran := log.ran ++ [r]
        reported := log.reported ++
          if cb.onError.isSome then (cb.outcome log.ran.length).toList else [] } := by
  unfold callHandler Callbacks.invoke
  cases cb.outcome log.ran.length with
  | none => simp
  | some exc => simp [handleCallbackError_eq]

/-- A handler runs once, whether it raises or not. -/
theorem callHandler_ran (cb : Callbacks E) (log : Log E) (r : Ran) :
    (callHandler cb log r).ran = log.ran ++ [r] := by
  rw [callHandler_eq]

/-- What it raises is reported, so the log stays exact. -/
theorem Log.Exact.callHandler (h : log.Exact cb) (r : Ran) : (callHandler cb log r).Exact cb := by
  unfold Log.Exact
  rw [callHandler_eq, List.length_append, List.length_singleton, reports_succ, ← h]

/-- No handler of a list is skipped. -/
theorem callHandlers_ran (cb : Callbacks E) (f : Inbound) (log : Log E) (handlers : List ℕ) :
    (callHandlers cb f log handlers).ran = log.ran ++ handlers.map (.handler · f) := by
  induction handlers generalizing log with
  | nil => simp [callHandlers]
  | cons h handlers ih =>
    have hcons : callHandlers cb f log (h :: handlers) =
        callHandlers cb f (callHandler cb log (.handler h f)) handlers := rfl
    rw [hcons, ih, callHandler_ran]
    simp

/-- So it does over all the handlers of a frame. -/
theorem Log.Exact.callHandlers (h : log.Exact cb) (f : Inbound) (handlers : List ℕ) :
    (callHandlers cb f log handlers).Exact cb := by
  induction handlers generalizing log with
  | nil => exact h
  | cons handler handlers ih => exact ih (h.callHandler (.handler handler f))

/-- The handlers that `_deliver` calls for a frame. -/
def called (d : Dialect) (hs : Handlers) (f : Inbound) : List ℕ :=
  let channel := d.channelOf f.fields
  if channel = .str "heartbeat" ∧ "heartbeat" ∉ hs then []
  else ((hs.under channel).toOption.getD []) ++ hs.get "*"

/-- A channel that is absent or a name can be looked up. -/
theorem Handlers.under_ok (hs : Handlers) {channel : Json}
    (hchannel : channel = .null ∨ ∃ name, channel = .str name) :
    ∃ handlers, hs.under channel = .ok handlers := by
  unfold Handlers.under
  rcases hchannel with rfl | ⟨name, rfl⟩
  · exact ⟨[], rfl⟩
  · split
    · exact ⟨_, rfl⟩
    · exact ⟨_, rfl⟩

/-- The channel of a frame is the name of a channel, or missing. -/
theorem Frame.channel_name (x : Frame d) : d.channelOf x.inbound.fields = .null ∨
    ∃ name, d.channelOf x.inbound.fields = .str name :=
  x.channel.imp id (fun ⟨name, hname, _⟩ => ⟨name, hname⟩)

/-- `_deliver` of a frame whose channel is absent or a name. -/
theorem deliver_spec (hs : Handlers) (f : Inbound) (hlog : log.Exact cb)
    (hchannel : d.channelOf f.fields = .null ∨ ∃ name, d.channelOf f.fields = .str name) :
    ∃ log', deliver d cb hs f log = .ok log' ∧
      log'.ran = log.ran ++ (called d hs f).map (.handler · f) ∧ log'.Exact cb := by
  unfold deliver called
  simp only
  split
  · exact ⟨log, rfl, (List.append_nil _).symm, hlog⟩
  · obtain ⟨handlers, hunder⟩ := hs.under_ok hchannel
    rw [hunder]
    refine ⟨_, rfl, ?_, (hlog.callHandlers f handlers).callHandlers f (hs.get "*")⟩
    rw [callHandlers_ran, callHandlers_ran, List.append_assoc, ← List.map_append]
    rfl

/-- `_dispatch` of a frame that no request waits for. -/
theorem dispatch_spec (hs : Handlers) (x : Frame d) (hlog : log.Exact cb) :
    ∃ log', dispatch d cb x.pending hs x.inbound log = .ok log' ∧
      log'.ran = log.ran ++ callbacksOf x.inbound (called d hs x.inbound) ∧ log'.Exact cb := by
  obtain ⟨fields, hraw⟩ := x.object
  obtain ⟨p, hresolve⟩ := x.uncorrelated
  obtain ⟨log', hdeliver, hran, hexact⟩ :=
    deliver_spec hs x.inbound (hlog.callHandler (.onMessage x.inbound)) x.channel_name
  refine ⟨log', ?_, ?_, hexact⟩
  · simp only [dispatch, hraw, hresolve]
    exact hdeliver
  · rw [hran, callHandler_ran, List.append_assoc]
    rfl

end Dispatch

/-! ## The dispatch between the other tasks -/

section Tasks

variable {cfg : Config} {w w' : World} {σ a c : ℕ} {f : Inbound} {queue : List ℕ}

/-- The step that a call of the registry's methods is. -/
def HandlerCall.event : HandlerCall → Event
  | add channel h => .addHandler channel h
  | remove channel h => .removeHandler channel h
  | clear channel => .clearHandlers channel

/-- The registry of the client is the one above. -/
theorem step_handlerCall (cfg : Config) (w : World) (call : HandlerCall) :
    step cfg w call.event = some { w with handlers := call.apply w.handlers } := by
  cases call with
  | add channel h => rfl
  | remove channel h =>
    simp only [HandlerCall.event, HandlerCall.apply, step, Multimap.remove]
    cases w.handlers.lookup channel with
    | none => rfl
    | some hs => rfl
  | clear channel =>
    cases channel with
    | none => rfl
    | some channel => rfl

/-- The callback that a task runs, or whose call it awaits. -/
def Body.callback : Body → Option Callback
  | .supervise _ (.inCallback _ _ cb) => some cb
  | _ => none

/-- The handler that a step makes a task run. -/
def handlerRun (cfg : Config) (σ : ℕ) (w : World) (e : Event) : Option ℕ :=
  (step cfg w e).bind fun w' =>
    match (w'.body σ).callback with
    | some (.handler h _ _) => some h
    | _ => none

/-- The handlers that are still to be called. -/
def queueOf (w : World) (handlers : List ℕ) (wildcard : Bool) : List ℕ :=
  handlers ++ if wildcard then (w.handlers.lookup "*").getD [] else []

/-- A task runs the first handler of a queue for a frame, or no callback if it is empty. -/
inductive Works (σ a c : ℕ) (f : Inbound) (w : World) : List ℕ → Prop
  | idle : (w.body σ).callback = none → Works σ a c f w []
  | busy {h : ℕ} {rest : List ℕ} {wildcard : Bool} :
    w.body σ = .supervise a (.inCallback c f (.handler h rest wildcard)) →
    w.isCancelled σ = false → Works σ a c f w (h :: queueOf w rest wildcard)

/-- A task that reads runs no callback. -/
theorem callback_read (cfg : Config) (w : World) (σ a c : ℕ) :
    ((w.read cfg σ a c).body σ).callback = none := by
  unfold World.read
  split
  · exact World.seen_pumpReturned cfg w σ a _ rfl (fun _ _ => rfl) (fun _ _ _ => rfl)
  · exact World.seen_setBody rfl rfl

/-- A task that goes on has no request to cancel left. -/
theorem isCancelled_setBody (w : World) (σ : ℕ) (b : Body) :
    (w.setBody σ b).isCancelled σ = false := by
  unfold World.isCancelled
  rw [World.setBody_tasks, List.getElem?_modify_eq]
  cases w.tasks[σ]? <;> rfl

/-- The handlers that are called, in their order, are those that were registered at the dispatch. -/
theorem works_runHandlers (hlt : σ < w.tasks.length) (handlers : List ℕ) (wildcard : Bool) :
    Works σ a c f (w.runHandlers cfg σ a c f handlers wildcard) (queueOf w handlers wildcard) := by
  have busy (h : ℕ) (rest : List ℕ) (wildcard : Bool) :
      Works σ a c f (w.setBody σ (.supervise a (.inCallback c f (.handler h rest wildcard))))
        (h :: queueOf w rest wildcard) :=
    .busy (World.body_setBody_self _ hlt) (isCancelled_setBody w σ _)
  unfold World.runHandlers
  cases handlers with
  | cons h rest => exact busy h rest wildcard
  | nil =>
    cases wildcard with
    | false => exact .idle (callback_read cfg w σ a c)
    | true =>
      simp only [if_true, queueOf, List.nil_append]
      cases (w.handlers.lookup "*").getD [] with
      | nil => exact .idle (callback_read cfg w σ a c)
      | cons h rest => simpa [queueOf] using busy h rest false

/-- A frame that is no reply is handed to the handlers of its channel, and to those of `'*'` after
them. -/
theorem works_deliver (hlt : σ < w.tasks.length)
    (hchannel : cfg.dialect.channelOf f.fields = .null ∨
      ∃ name, cfg.dialect.channelOf f.fields = .str name) :
    Works σ a c f (w.deliver cfg σ a c f) (called cfg.dialect w.handlers f) := by
  unfold World.deliver called
  simp only
  split
  · exact .idle (callback_read cfg w σ a c)
  · obtain ⟨handlers, hunder⟩ := Handlers.under_ok w.handlers hchannel
    have hof : w.handlersOf (cfg.dialect.channelOf f.fields) = .ok handlers := hunder
    rw [hof, hunder]
    exact works_runHandlers hlt handlers true

/-- A task that runs no callback ends none. -/
theorem outputs_idle (hidle : (w.body σ).callback = none) (results : List CallbackResult) :
    Transition.outputs (step cfg) (handlerRun cfg σ) w (results.map (.callbackEnd σ)) = [] := by
  cases results with
  | nil => rfl
  | cons result results =>
    have hstep : step cfg w (.callbackEnd σ result) = none := by
      simp only [step, World.callbackEndStep]
      split
      · rfl
      · split
        · rename_i hbody
          rw [hbody] at hidle
          cases hidle
        · rfl
    simp [Transition.outputs, hstep]

/-- A task that has begun with a queue works it off. -/
theorem outputs_works {result : CallbackResult} {results : List CallbackResult}
    (hstep : step cfg w (.callbackEnd σ result) = some w') (hworks : Works σ a c f w' queue)
    (hresults : CallbackResult.cancelled ∉ results) :
    Transition.outputs (step cfg) (handlerRun cfg σ) w
      ((result :: results).map (.callbackEnd σ)) = queue.take (results.length + 1) := by
  induction results generalizing w w' queue result with
  | nil =>
    cases hworks with
    | idle hidle => simp [Transition.outputs, hstep, handlerRun, hidle]
    | busy hbody hfree => simp [Transition.outputs, hstep, handlerRun, hbody, Body.callback]
  | cons result' results ih =>
    rw [List.map_cons, Transition.outputs, hstep]
    simp only [handlerRun, hstep, Option.bind_some]
    cases hworks with
    | idle hidle =>
      rw [outputs_idle hidle, hidle]
      simp
    | @busy h rest wildcard hbody hfree =>
      have hresult : result' ≠ .cancelled := by
        rintro rfl
        simp at hresults
      have hnext : step cfg w' (.callbackEnd σ result') =
          some (w'.runHandlers cfg σ a c f rest wildcard) := by
        cases result' with
        | cancelled => exact absurd rfl hresult
        | returned => simp [step, hfree, World.callbackEndStep, hbody]
        | raised => simp [step, hfree, World.callbackEndStep, hbody]
      have hlt : σ < w'.tasks.length := World.lt_of_body_ne (by simp [hbody])
      rw [ih hnext (works_runHandlers hlt rest wildcard) (fun hin => hresults (by simp [hin]))]
      simp [hbody, Body.callback]

/-- The task that has run `on_message` for a frame calls the handlers of the frame one after the
other, whether a callback returns or raises. -/
theorem outputs_dispatch {x : Frame cfg.dialect} {results : List CallbackResult}
    (hbody : w.body σ = .supervise a (.inCallback c x.inbound .onMessage))
    (hfree : w.isCancelled σ = false) (hpending : w.rpc.pending = x.pending)
    (hresults : CallbackResult.cancelled ∉ results) :
    Transition.outputs (step cfg) (handlerRun cfg σ) w (results.map (.callbackEnd σ)) =
      (called cfg.dialect w.handlers x.inbound).take results.length := by
  cases results with
  | nil => rfl
  | cons result results =>
    have hlt : σ < w.tasks.length := World.lt_of_body_ne (by simp [hbody])
    have hstep : step cfg w (.callbackEnd σ result) =
        some (w.dispatch cfg σ a c x.inbound) := by
      cases result with
      | cancelled => simp at hresults
      | returned => simp [step, hfree, World.callbackEndStep, hbody]
      | raised => simp [step, hfree, World.callbackEndStep, hbody]
    obtain ⟨fields, hraw⟩ := x.object
    obtain ⟨p, hresolve⟩ := x.uncorrelated
    rw [← hpending] at hresolve
    have hworks : Works σ a c x.inbound (w.dispatch cfg σ a c x.inbound)
        (called cfg.dialect w.handlers x.inbound) := by
      simp only [World.dispatch, hraw, World.modifyConn_rpc, hresolve]
      exact works_deliver hlt x.channel_name
    exact outputs_works hstep hworks (fun hin => hresults (by simp [hin]))

end Tasks

/-! ## What a history leaves -/

section History

variable {E : Type*} {d : Dialect} {cb : Callbacks E} {past history : List (Occurs d)}
  {channel : String}

/-- The call drops all handlers of a channel. -/
def Occurs.clears (channel : String) : Occurs d → Prop
  | .register (.clear none) => True
  | .register (.clear (some channel')) => channel = channel'
  | _ => False

/-- A handler was added for a channel, and the channel was not cleared since. -/
def Lingers (past : List (Occurs d)) (channel : String) : Prop :=
  ∃ before h after, past = before ++ .register (.add channel h) :: after ∧
    ∀ o ∈ after, ¬o.clears channel

/-- A channel lingers in the registry after a step of the history when a handler was added to it, or
it lingered and was not cleared. -/
theorem lingers_snoc {o : Occurs d} : Lingers (past ++ [o]) channel ↔
    (∃ h, o = .register (.add channel h)) ∨ (Lingers past channel ∧ ¬o.clears channel) := by
  constructor
  · rintro ⟨before, h, after, heq, hafter⟩
    rcases List.eq_nil_or_concat after with rfl | ⟨after', o', rfl⟩
    · obtain ⟨-, ho⟩ := List.append_inj' heq rfl
      exact .inl ⟨h, List.head_eq_of_cons_eq ho⟩
    · have heq' : past ++ [o] = (before ++ .register (.add channel h) :: after') ++ [o'] := by
        rw [heq]
        simp
      obtain ⟨hpast, ho⟩ := List.append_inj' heq' rfl
      obtain rfl := List.head_eq_of_cons_eq ho
      refine .inr ⟨⟨before, h, after', hpast, ?_⟩, hafter o (by simp)⟩
      intro o' ho'
      exact hafter o' (by simp [ho'])
  · rintro (⟨h, rfl⟩ | ⟨⟨before, h, after, rfl, hafter⟩, ho⟩)
    · exact ⟨past, h, [], rfl, by simp⟩
    · refine ⟨before, h, after ++ [o], by simp, ?_⟩
      intro o' ho'
      rcases List.mem_append.mp ho' with hin | hlast
      · exact hafter o' hin
      · rw [List.mem_singleton.mp hlast]
        exact ho

/-- The dict after a history: it represents the live registrations, and its keys linger. -/
structure Keeps (hs : Handlers) (past : List (Occurs d)) : Prop where
  represents : hs.Represents (ideal past).live
  keys : ∀ channel, channel ∈ hs ↔ Lingers past channel

/-- One occurrence more is what it does to the ideal client. -/
theorem ideal_snoc (past : List (Occurs d)) (o : Occurs d) :
    ideal (past ++ [o]) = (ideal past).occur o := by
  simp [ideal]

/-- And what it does to the client, unless an earlier one raised. -/
theorem play_snoc (cb : Callbacks E) (past : List (Occurs d)) (o : Occurs d) :
    play cb (past ++ [o]) = (play cb past).bind (fun s => s.occur cb o) := by
  rw [play, List.foldlM_append]
  simp only [List.foldlM_cons, List.foldlM_nil, bind_pure]
  rfl

/-- A call of the registry's methods keeps that. -/
theorem Keeps.apply {hs : Handlers} (h : Keeps hs past) (call : HandlerCall) :
    Keeps (call.apply hs) (past ++ [.register call]) := by
  constructor
  · rw [ideal_snoc]
    cases call with
    | add channel handler => exact h.represents.append
    | remove channel handler => exact h.represents.remove
    | clear channel =>
      cases channel with
      | none => exact Multimap.empty_represents
      | some channel => exact h.represents.erase
  · intro channel
    rw [lingers_snoc, ← h.keys channel]
    cases call with
    | add channel' handler =>
      have hmem : channel ∈ HandlerCall.apply hs (.add channel' handler) ↔
          channel = channel' ∨ channel ∈ hs := Multimap.mem_append
      rw [hmem]
      simp [Occurs.clears, eq_comm]
    | remove channel' handler =>
      have hmem : channel ∈ HandlerCall.apply hs (.remove channel' handler) ↔ channel ∈ hs :=
        Multimap.mem_remove
      rw [hmem]
      simp [Occurs.clears]
    | clear channel' =>
      cases channel' with
      | none => simp [HandlerCall.apply, Occurs.clears]
      | some channel' =>
        have hmem : channel ∈ HandlerCall.apply hs (.clear (some channel')) ↔
            channel ≠ channel' ∧ channel ∈ hs := AList.mem_erase
        rw [hmem]
        simp [Occurs.clears, and_comm]

/-- A frame leaves the registry alone, whoever is called for it. -/
theorem Keeps.frame {hs : Handlers} (h : Keeps hs past) (x : Frame d) :
    Keeps hs (past ++ [.frame x]) := by
  constructor
  · rw [ideal_snoc]
    exact h.represents
  · intro channel
    rw [lingers_snoc, ← h.keys channel]
    simp [Occurs.clears]

/-- The read loop survives every history, and reports every exception once. -/
theorem play_ok (cb : Callbacks E) (past : List (Occurs d)) :
    ∃ s, play cb past = .ok s ∧ Keeps s.handlers past ∧ s.log.Exact cb := by
  induction past using List.reverseRecOn with
  | nil =>
    refine ⟨{}, rfl, ⟨Multimap.empty_represents, ?_⟩, ?_⟩
    · intro channel
      apply iff_of_false (AList.notMem_empty channel)
      rintro ⟨before, h, after, heq, -⟩
      simp at heq
    · simp [Log.Exact, Callbacks.reports]
  | append_singleton past o ih =>
    obtain ⟨s, hplay, hkeeps, hexact⟩ := ih
    rw [play_snoc, hplay]
    cases o with
    | register call => exact ⟨_, rfl, hkeeps.apply call, hexact⟩
    | frame x =>
      obtain ⟨log, hdispatch, -, hexact'⟩ := dispatch_spec s.handlers x hexact
      refine ⟨{ s with log := log }, ?_, hkeeps.frame x, hexact'⟩
      simp [Except.bind, Dispatcher.occur, hdispatch, Except.map]

/-- A frame is delivered to the handlers that the code calls. -/
theorem play_frame {s s' : Dispatcher E} {x : Frame d} (hplay : play cb past = .ok s)
    (hexact : s.log.Exact cb) (hplay' : play cb (past ++ [.frame x]) = .ok s') :
    s'.log.ran = s.log.ran ++ callbacksOf x.inbound (called d s.handlers x.inbound) := by
  obtain ⟨log, hdispatch, hran, -⟩ := dispatch_spec s.handlers x hexact
  rw [play_snoc, hplay] at hplay'
  simp only [Except.bind, Dispatcher.occur, hdispatch, Except.map] at hplay'
  obtain rfl := Except.ok.inj hplay'
  exact hran

/-- The callbacks of a frame determine which handlers they belong to. -/
theorem callbacksOf_inj {f : Inbound} {handlers handlers' : List ℕ}
    (h : callbacksOf f handlers = callbacksOf f handlers') : handlers = handlers' := by
  refine List.map_injective_iff.mpr ?_ (List.tail_eq_of_cons_eq h)
  intro a b hab
  exact (Ran.handler.inj hab).1

/-! ## Where the code differs from the ideal client -/

/-- A frame of the venue's heartbeat channel finds no live handler for it but the empty list of
one that was removed, and is passed to the handlers for every message. -/
structure Residue (past : List (Occurs d)) (x : Frame d) : Prop where
  channel : d.channelOf x.inbound.fields = .str "heartbeat"
  dead : Multimap.valuesOf (ideal past).live "heartbeat" = []
  lingers : Lingers past "heartbeat"
  heard : Multimap.valuesOf (ideal past).live "*" ≠ []

/-- A frame of the channel with the empty name is kept from the handlers for that channel. -/
structure Nameless (past : List (Occurs d)) (x : Frame d) : Prop where
  channel : d.channelOf x.inbound.fields = .str ""
  live : Multimap.valuesOf (ideal past).live "" ≠ []

/-- The handlers that the code calls, in terms of the history. -/
theorem Keeps.called {hs : Handlers} (h : Keeps hs past) (x : Frame d) :
    ((d.channelOf x.inbound.fields = .str "heartbeat" ∧ ¬Lingers past "heartbeat") ∧
      called d hs x.inbound = []) ∨
    (¬(d.channelOf x.inbound.fields = .str "heartbeat" ∧ ¬Lingers past "heartbeat") ∧
      called d hs x.inbound =
        (if d.channelOf x.inbound.fields = .str "" then []
          else liveUnder (ideal past).live (d.channelOf x.inbound.fields)) ++
        Multimap.valuesOf (ideal past).live "*") := by
  have hunder : (hs.under (d.channelOf x.inbound.fields)).toOption.getD [] =
      if d.channelOf x.inbound.fields = .str "" then []
      else liveUnder (ideal past).live (d.channelOf x.inbound.fields) := by
    rcases x.channel with hnull | ⟨name, hname, -⟩
    · rw [hnull]
      rfl
    · rw [hname]
      unfold Handlers.under
      by_cases hempty : name = ""
      · subst hempty
        rfl
      · simp [Json.truthy, hempty, Json.key?, Except.toOption, h.represents name, liveUnder]
  unfold Websocket.called
  rw [← h.keys "heartbeat", ← h.represents "*", ← hunder]
  simp only
  split
  · rename_i hdeaf
    exact .inl ⟨hdeaf, rfl⟩
  · rename_i hdeaf
    exact .inr ⟨hdeaf, rfl⟩

/-- A channel that was never registered, or was cleared since, has no live handlers. -/
theorem Keeps.dead {hs : Handlers} (h : Keeps hs past) (hnone : ¬Lingers past channel) :
    Multimap.valuesOf (ideal past).live channel = [] := by
  rw [← h.keys channel, ← AList.lookup_eq_none] at hnone
  rw [← h.represents channel, Multimap.get, hnone]
  rfl

/-- The code calls the live handlers of a frame, but for these two cases. -/
theorem called_eq_iff {hs : Handlers} (h : Keeps hs past) (x : Frame d) :
    called d hs x.inbound = recipients d (ideal past).live x.inbound ↔
      ¬Residue past x ∧ ¬Nameless past x := by
  have hheart : Json.str "heartbeat" ≠ .str "" := by decide
  unfold recipients
  simp only
  rcases h.called x with ⟨⟨hchannel, hgone⟩, hcalled⟩ | ⟨hwanted, hcalled⟩
  · -- the key `heartbeat` is absent
    rw [hcalled, if_pos ⟨hchannel, h.dead hgone⟩]
    refine iff_of_true rfl ⟨fun hresidue => hgone hresidue.lingers, fun hnameless => ?_⟩
    exact hheart (hchannel.symm.trans hnameless.channel)
  · rw [hcalled]
    by_cases hchannel : d.channelOf x.inbound.fields = .str "heartbeat"
    · have hlingers : Lingers past "heartbeat" := by
        by_contra hgone
        exact hwanted ⟨hchannel, hgone⟩
      have hnamed : ¬Nameless past x := fun hnameless =>
        hheart (hchannel.symm.trans hnameless.channel)
      rw [hchannel, if_neg hheart, and_iff_left hnamed]
      by_cases hdead : Multimap.valuesOf (ideal past).live "heartbeat" = []
      · rw [if_pos ⟨rfl, hdead⟩, liveUnder, hdead, List.nil_append]
        constructor
        · intro hsilent hresidue
          exact hresidue.heard hsilent
        · intro hresidue
          by_contra hheard
          exact hresidue ⟨hchannel, hdead, hlingers, hheard⟩
      · rw [if_neg (fun hboth => hdead hboth.2)]
        exact iff_of_true rfl (fun hresidue => hdead hresidue.dead)
    · have hresidue : ¬Residue past x := fun hresidue => hchannel hresidue.channel
      have hother : ¬(d.channelOf x.inbound.fields = .str "heartbeat" ∧
          Multimap.valuesOf (ideal past).live "heartbeat" = []) := fun hboth => hchannel hboth.1
      rw [if_neg hother, and_iff_right hresidue, List.append_left_inj]
      by_cases hempty : d.channelOf x.inbound.fields = .str ""
      · rw [if_pos hempty, hempty]
        constructor
        · intro hsilent hnameless
          exact hnameless.live hsilent.symm
        · intro hnameless
          by_contra hlive
          exact hnameless ⟨hempty, fun hnone => hlive hnone.symm⟩
      · rw [if_neg hempty]
        exact iff_of_true rfl (fun hnameless => hempty hnameless.channel)

/-- Delivery is exact and isolated throughout a history if and only if no frame in it meets the
residue of a removed handler, or a handler for its empty name. -/
theorem delivers_iff (cb : Callbacks E) (history : List (Occurs d)) :
    Delivers cb history ↔ ∀ past x, past ++ [.frame x] <+: history →
      ¬Residue past x ∧ ¬Nameless past x := by
  constructor
  · intro h past x hpast
    have hbefore : past <+: history := (List.prefix_append past _).trans hpast
    obtain ⟨s, hplay, hran, hexact⟩ := h past hbefore
    obtain ⟨s', hplay', hran', -⟩ := h _ hpast
    obtain ⟨t, hplay₀, hkeeps, -⟩ := play_ok cb past
    obtain rfl := Except.ok.inj (hplay.symm.trans hplay₀)
    rw [← called_eq_iff hkeeps x]
    rw [play_frame hplay hexact hplay', ideal_snoc, hran] at hran'
    have hcallbacks : callbacksOf x.inbound (called d s.handlers x.inbound) =
        callbacksOf x.inbound (recipients d (ideal past).live x.inbound) :=
      List.append_cancel_left hran'
    exact callbacksOf_inj hcallbacks
  · intro h past hpast
    induction past using List.reverseRecOn with
    | nil => exact ⟨{}, rfl, rfl, by simp [Callbacks.reports]⟩
    | append_singleton past o ih =>
      obtain ⟨s, hplay, hran, hexact⟩ := ih ((List.prefix_append past _).trans hpast)
      obtain ⟨t, hplay₀, hkeeps, -⟩ := play_ok cb past
      obtain rfl := Except.ok.inj (hplay.symm.trans hplay₀)
      obtain ⟨s', hplay', -, hexact'⟩ := play_ok cb (past ++ [o])
      refine ⟨s', hplay', ?_, hexact'⟩
      cases o with
      | register call =>
        rw [play_snoc, hplay] at hplay'
        obtain rfl := Except.ok.inj hplay'
        rw [ideal_snoc]
        exact hran
      | frame x =>
        rw [play_frame hplay hexact hplay', ideal_snoc, hran,
          (called_eq_iff hkeeps x).mpr (h past x hpast)]
        rfl

end History

/-- A frame of a channel that nobody waits for, in the Kraken dialect. -/
def Frame.sample (channel : String) (hwild : channel ≠ "*") : Frame .kraken where
  inbound := ⟨.json (.obj [("channel", .str channel)]), none⟩
  pending := {}
  object := ⟨_, rfl⟩
  uncorrelated := ⟨{}, by
    simp [PendingRequests.resolve, Dialect.responseKey, Inbound.fields, Fields.get,
      List.lookup_cons]⟩
  channel := .inr ⟨channel, by
    simp [Dialect.channelOf, Inbound.fields, Fields.get], hwild⟩

/-- A handler for heartbeats is added and removed, and then a heartbeat frame arrives. -/
def residueHistory : List (Occurs .kraken) :=
  [.register (.add "*" 1), .register (.add "heartbeat" 0), .register (.remove "heartbeat" 0),
    .frame (.sample "heartbeat" (by decide))]

/-- A handler is registered for the channel with the empty name, and a frame of it arrives. -/
def namelessHistory : List (Occurs .kraken) :=
  [.register (.add "" 0), .frame (.sample "" (by decide))]

/-- The heartbeat frame is delivered to the handler for every message, and the frame with the
empty name to nobody. -/
theorem misdelivered_frames :
    let cb : Callbacks Unit := ⟨fun _ => none, none⟩
    ((play cb residueHistory).toOption.map (fun s => s.log.ran) =
        some (callbacksOf (Frame.sample "heartbeat" (by decide)).inbound [1]) ∧
      (ideal residueHistory).ran =
        callbacksOf (Frame.sample "heartbeat" (by decide)).inbound [] ∧
      ¬Delivers cb residueHistory) ∧
    (play cb namelessHistory).toOption.map (fun s => s.log.ran) =
        some (callbacksOf (Frame.sample "" (by decide)).inbound []) ∧
      (ideal namelessHistory).ran = callbacksOf (Frame.sample "" (by decide)).inbound [0] ∧
      ¬Delivers cb namelessHistory := by
  intro cb
  have fails {history : List (Occurs .kraken)} {ran : List Ran}
      (hran : (play cb history).toOption.map (fun s => s.log.ran) = some ran)
      (hne : ran ≠ (ideal history).ran) : ¬Delivers cb history := by
    intro h
    obtain ⟨s, hplay, heq, -⟩ := h history List.prefix_rfl
    rw [hplay] at hran
    exact hne ((Option.some.inj hran).symm.trans heq)
  have hresidue : (play cb residueHistory).toOption.map (fun s => s.log.ran) =
      some (callbacksOf (Frame.sample "heartbeat" (by decide)).inbound [1]) := by decide +kernel
  have hnameless : (play cb namelessHistory).toOption.map (fun s => s.log.ran) =
      some (callbacksOf (Frame.sample "" (by decide)).inbound []) := by decide +kernel
  exact ⟨⟨hresidue, by decide +kernel, fails hresidue (by decide +kernel)⟩,
    hnameless, by decide +kernel, fails hnameless (by decide +kernel)⟩

end ProxyClient.Websocket
