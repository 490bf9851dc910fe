import ProxyClient.Websocket.Connection

/-!
# Replies to the handshake

`_authenticate` reads the error of a refused handshake by itself, beside the `error_of` of the
dialects. It looks at the top level of the reply only, passes no detail on, and calls `.get` on
whatever JSON the reply is. The last theorem says which replies it reads right all the same.
-/

namespace ProxyClient

open Websocket

variable {raw : Raw} {reply : Fields}

/-- The object that carries the code, the message and the detail of an error frame: `data.error`,
or else the frame itself. -/
def Fields.errorBody (reply : Fields) : Fields :=
  match Fields.get reply "data" with
  | .obj data =>
    match Fields.get data "error" with
    | .obj err => err
    | _ => reply
  | _ => reply

/-- The code that a refusal carries. Only without one the handshake counts as failed. -/
def Fields.refusalCode (body : Fields) : Json := Fields.getD body "code" (.str "AUTH_FAILED")

/-- The exception reports what an error frame carries. -/
structure ProxyError.Reports (e : ProxyError) (reply : Fields) : Prop where
  cls : e.cls = ErrorClass.ofCode reply.errorBody.refusalCode
  message : ∀ message, reply.errorBody.lookup "message" = some message → e.message = message
  detail : e.detail = Fields.get reply.errorBody "detail"
  requestId : e.requestId = Fields.getD reply "request_id" (.str "")

/-- What should become of a reply to the handshake. -/
structure Classifies (raw : Raw) (outcome : Except Exc Unit) : Prop where
  succeeds : outcome = .ok () ↔
    ∃ reply, raw = .json (.obj reply) ∧ Fields.get reply "event" = .str "auth"
  unreachable : (∀ reply, raw ≠ .json (.obj reply)) →
    ∃ e, outcome = .error (.proxy e) ∧ e.cls = .proxyUnreachableError
  reports : ∀ reply, raw = .json (.obj reply) → Fields.get reply "event" = .str "error" →
    ∃ e, outcome = .error (.proxy e) ∧ e.Reports reply
  typed : ∀ exc, outcome = .error exc → ∃ e, exc = .proxy e

/-- An error frame whose top level says all that the frame carries. -/
structure Fields.SpeaksAtTop (reply : Fields) : Prop where
  cls : ErrorClass.ofCode reply.refusalCode = ErrorClass.ofCode reply.errorBody.refusalCode
  message : ∀ message, reply.errorBody.lookup "message" = some message →
    Fields.getD reply "message" (.str "the Proxy refused the WebSocket handshake") = message
  detail : Fields.get reply.errorBody "detail" = .null

/-- A reply that `_authenticate` reads right: an object, whose parts have the shapes that it
expects. -/
def Websocket.Raw.Answers : Raw → Prop
  | .undecodable _ => True
  | .unloadable => False
  | .json (.obj reply) =>
    Fields.get reply "event" = .str "auth" ∨ ((Fields.refusalCode reply).key?.isSome ∧
      (Fields.get reply "event" = .str "error" → Fields.SpeaksAtTop reply))
  | .json _ => False

/-- A reply that raises a builtin exception is classified wrongly. -/
theorem not_classifies_of_py {e : PyError} : ¬Classifies raw (.error (.py e)) := by
  intro h
  obtain ⟨e', he'⟩ := h.typed _ rfl
  cases he'

/-- An error at the top level speaks for itself, if it has no detail. -/
theorem speaksAtTop_of_flat (hflat : reply.errorBody = reply) :
    reply.SpeaksAtTop ↔ Fields.get reply "detail" = .null := by
  constructor
  · intro h
    rw [← h.detail, hflat]
  · intro hdetail
    refine ⟨by rw [hflat], ?_, by rw [hflat, hdetail]⟩
    intro message hmessage
    rw [hflat] at hmessage
    simp [Fields.getD, hmessage]

/-- A refusal is classified right if and only if its code can be hashed and, for an error frame,
its top level says all that it carries. -/
theorem classifies_refusal (hauth : Fields.get reply "event" ≠ .str "auth") :
    Classifies (.json (.obj reply)) (handshakeReply (.json (.obj reply))) ↔
      reply.refusalCode.key?.isSome ∧
        (Fields.get reply "event" = .str "error" → reply.SpeaksAtTop) := by
  have hreply : handshakeReply (.json (.obj reply)) = .error (raiseFromResponse reply.refusalCode
      (Fields.getD reply "message" (.str "the Proxy refused the WebSocket handshake")) .null
      (Fields.getD reply "request_id" (.str "")) none) := by
    simp only [handshakeReply, if_neg hauth, Fields.refusalCode]
  rw [hreply]
  cases hkey : reply.refusalCode.key? with
  | none =>
    rw [raiseFromResponse_of_unhashable hkey]
    exact iff_of_false not_classifies_of_py (by simp)
  | some key =>
    rw [raiseFromResponse_of_key (by rw [hkey]; rfl)]
    constructor
    · intro h
      refine ⟨rfl, ?_⟩
      intro herror
      obtain ⟨e, he, hreports⟩ := h.reports reply rfl herror
      obtain rfl := Exc.proxy.inj (Except.error.inj he)
      exact ⟨hreports.cls, hreports.message, hreports.detail.symm⟩
    · rintro ⟨-, hspeaks⟩
      refine ⟨?_, ?_, ?_, ?_⟩
      · apply iff_of_false (by simp)
        rintro ⟨reply', hraw, hauth'⟩
        obtain rfl := Json.obj.inj (Raw.json.inj hraw)
        exact hauth hauth'
      · intro hshape
        exact absurd rfl (hshape reply)
      · intro reply' hraw herror
        obtain rfl := Json.obj.inj (Raw.json.inj hraw)
        have htop := hspeaks herror
        exact ⟨_, rfl, htop.cls, htop.message, htop.detail.symm, rfl⟩
      · intro exc hexc
        exact ⟨_, (Except.error.inj hexc).symm⟩

/-- A reply to the handshake is classified right if and only if it is an acceptance, or no JSON
at all, or a refusal whose code can be hashed and whose top level says all that it carries. -/
theorem handshake_classified_iff (raw : Raw) :
    Classifies raw (handshakeReply raw) ↔ raw.Answers := by
  cases raw with
  | undecodable text =>
    refine iff_of_true ⟨?_, fun _ => ⟨_, rfl, rfl⟩, ?_, ?_⟩ trivial
    · simp [handshakeReply]
    · intro reply hraw
      cases hraw
    · intro exc hexc
      exact ⟨_, (Except.error.inj hexc).symm⟩
  | unloadable => exact iff_of_false not_classifies_of_py id
  | json value =>
    cases value with
    | obj reply =>
      by_cases hauth : Fields.get reply "event" = .str "auth"
      · have hreply : handshakeReply (.json (.obj reply)) = .ok () := by
          simp only [handshakeReply, if_pos hauth]
        rw [hreply]
        refine iff_of_true ⟨iff_of_true rfl ⟨reply, rfl, hauth⟩, ?_, ?_, ?_⟩ (.inl hauth)
        · intro hshape
          exact absurd rfl (hshape reply)
        · intro reply' hraw herror
          obtain rfl := Json.obj.inj (Raw.json.inj hraw)
          rw [hauth] at herror
          simp at herror
        · intro exc hexc
          cases hexc
      · rw [classifies_refusal hauth]
        simp only [Raw.Answers, hauth, false_or]
    | _ => exact iff_of_false not_classifies_of_py id

/-- A nested `RATE_LIMITED` is reported as a permanent failure of the credentials, the detail of
a flat frame is lost, and a list raises `AttributeError`. -/
theorem refusals_misread :
    let err : Fields := [("code", .str "RATE_LIMITED"), ("message", .str "slow down")]
    let nested : Raw := .json (.obj [("event", .str "error"), ("data", .obj [("error", .obj err)])])
    let flat : Raw := .json (.obj [("event", .str "error"), ("detail", .str "clock skew")])
    handshakeReply nested = .error (.proxy ⟨.authFailedError, .str "AUTH_FAILED",
        .str "the Proxy refused the WebSocket handshake", .null, .str "", none⟩) ∧
      handshakeReply (.json (.arr [])) = .error (.py .attributeError) ∧
      ¬Classifies nested (handshakeReply nested) ∧ ¬Classifies flat (handshakeReply flat) ∧
      ¬Classifies (.json (.arr [])) (handshakeReply (.json (.arr []))) := by
  intro err nested flat
  have hreply : handshakeReply nested = .error (.proxy ⟨.authFailedError, .str "AUTH_FAILED",
      .str "the Proxy refused the WebSocket handshake", .null, .str "", none⟩) := by rfl
  refine ⟨hreply, rfl, ?_, ?_, not_classifies_of_py⟩
  · intro h
    obtain ⟨e, he, hreports⟩ := h.reports _ rfl rfl
    rw [hreply] at he
    obtain rfl := Exc.proxy.inj (Except.error.inj he)
    cases hreports.cls
  · intro h
    have htop := ((classifies_refusal (by decide)).mp h).2 rfl
    have hdetail := (speaksAtTop_of_flat rfl).mp htop
    cases hdetail

end ProxyClient
