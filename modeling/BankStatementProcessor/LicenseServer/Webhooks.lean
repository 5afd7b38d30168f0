import BankStatementProcessor.Infra.Hex
import BankStatementProcessor.Infra.Utf8Bytes
import BankStatementProcessor.LicenseServer.Server

/-!
# The webhook route

Nothing but the signature of the body says that a webhook call is the gateway's. The event id is
taken from a header, which the signature does not cover.

`WebhookLib` has the hash functions and the JSON reader. Metrics and logs are left out.
-/

namespace LicenseServer

open Infra

structure WebhookLib where
  hmacSha256 : (key message : List UInt8) → List UInt8
  sha256 : List UInt8 → List UInt8
  /-- `String::from_utf8_lossy` -/
  fromUtf8Lossy : List UInt8 → String
  /-- `serde_json::from_slice`, of the payload -/
  payloadFromSlice : List UInt8 → Except String RazorpayWebhookPayload

/-- A call as it arrives. The headers are those that are text. -/
structure WebhookCall where
  env : CallEnv
  signature : Option String
  eventId : Option String
  body : List UInt8

inductive WebhookError
  | unauthorized
  | invalidRequest (msg : String)
  | payment (e : PaymentOperationError)
  deriving DecidableEq, Repr

section

variable (lib : WebhookLib)

/-- `verify_webhook_signature`, which compares the bytes. -/
def verifyWebhookSignature (secret : String) (rawBody : List UInt8) (signatureHeader : String) :
    Bool :=
  match Hex.decode signatureHeader.toList with
  | none => false
  | some expectedBytes => lib.hmacSha256 (asBytes secret.toList) rawBody == expectedBytes

/-- The header, or else the hash of the body. -/
def resolveEventId (eventId : Option String) (rawBody : List UInt8) : String :=
  eventId.getD (String.ofList
    (Hex.encode (lib.sha256 (asBytes (lib.fromUtf8Lossy rawBody).toList))))

/-- `secret` is the configured one. -/
def webhook (secret : Option String) (db : Db) (call : WebhookCall) :
    Except WebhookError Unit × Db :=
  match call.signature with
  | none => (.error .unauthorized, db)
  | some signature =>
    match secret with
    | none => (.error .unauthorized, db)
    | some secret =>
      if !verifyWebhookSignature lib secret call.body signature then (.error .unauthorized, db)
      else
        match lib.payloadFromSlice call.body with
        | .error e => (.error (.invalidRequest e), db)
        | .ok payload =>
          match processWebhookEvent db call.env (resolveEventId lib call.eventId call.body)
              payload with
          | (.error e, db) => (.error (.payment e), db)
          | (.ok (), db) => (.ok (), db)

def serveWebhook (secret : Option String) (db : Db) (call : WebhookCall) : Db :=
  (webhook lib secret db call).2

/-- The call carries the signature of its body: two hexadecimal digits a byte, in either case. -/
def WebhookCall.IsSigned (secret : Option String) (call : WebhookCall) : Prop :=
  ∃ s ∈ secret, ∃ signature ∈ call.signature,
    Hex.IsHexOf signature.toList (lib.hmacSha256 (asBytes s.toList) call.body)

/-- The event of a call that is signed and can be read. -/
def WebhookCall.IsDelivery (secret : Option String) (call : WebhookCall) (d : Delivery) : Prop :=
  call.IsSigned lib secret ∧ ∃ payload, lib.payloadFromSlice call.body = .ok payload ∧
    d = ⟨call.env, resolveEventId lib call.eventId call.body, payload⟩

def WebhookCall.delivery? (secret : Option String) (call : WebhookCall) : Option Delivery :=
  secret.bind fun s => call.signature.bind fun signature =>
    if verifyWebhookSignature lib s call.body signature then
      (lib.payloadFromSlice call.body).toOption.map fun payload =>
        ⟨call.env, resolveEventId lib call.eventId call.body, payload⟩
    else none

end

section

variable {lib : WebhookLib} {secret : Option String} {db : Db} {call : WebhookCall} {d : Delivery}

theorem verifyWebhookSignature_iff {s : String} {body : List UInt8} {signature : String} :
    verifyWebhookSignature lib s body signature = true ↔
      Hex.IsHexOf signature.toList (lib.hmacSha256 (asBytes s.toList) body) := by
  rw [← Hex.decode_eq_some, verifyWebhookSignature]
  cases Hex.decode signature.toList with
  | none => simp
  | some bytes =>
    simp only [beq_iff_eq, Option.some.injEq]
    exact eq_comm

/-- A call that is not signed is refused. -/
theorem webhook_of_not_isSigned (h : ¬ call.IsSigned lib secret) :
    webhook lib secret db call = (.error .unauthorized, db) := by
  unfold webhook
  cases hsignature : call.signature with
  | none => rfl
  | some signature =>
    cases secret with
    | none => rfl
    | some s =>
      have hverify : verifyWebhookSignature lib s call.body signature = false := by
        rw [← Bool.not_eq_true, verifyWebhookSignature_iff]
        exact fun hhex => h ⟨s, rfl, signature, hsignature, hhex⟩
      simp [hverify]

/-- A call that is signed is read and processed. -/
theorem webhook_of_isSigned (h : call.IsSigned lib secret) : webhook lib secret db call =
    match lib.payloadFromSlice call.body with
    | .error e => (.error (.invalidRequest e), db)
    | .ok payload =>
      ((processWebhookEvent db call.env (resolveEventId lib call.eventId call.body)
          payload).1.mapError .payment,
        deliver db ⟨call.env, resolveEventId lib call.eventId call.body, payload⟩) := by
  obtain ⟨s, rfl, signature, hsignature, hhex⟩ := h
  unfold webhook
  rw [hsignature]
  dsimp only
  rw [verifyWebhookSignature_iff.mpr hhex, if_neg (by simp)]
  cases lib.payloadFromSlice call.body with
  | error e => rfl
  | ok payload =>
    dsimp only
    unfold deliver
    dsimp only
    split <;> next heq => rw [heq]; rfl

theorem webhook_of_isDelivery (h : call.IsDelivery lib secret d) : webhook lib secret db call =
    ((processWebhookEvent db d.env d.eventId d.payload).1.mapError .payment, deliver db d) := by
  obtain ⟨hsigned, payload, hpayload, rfl⟩ := h
  rw [webhook_of_isSigned hsigned, hpayload]

theorem serveWebhook_of_isDelivery (h : call.IsDelivery lib secret d) :
    serveWebhook lib secret db call = deliver db d :=
  congrArg Prod.snd (webhook_of_isDelivery h)

/-- A call that is not the gateway's, or cannot be read, does nothing. -/
theorem serveWebhook_of_not_isDelivery (h : ∀ d, ¬ call.IsDelivery lib secret d) :
    serveWebhook lib secret db call = db := by
  unfold serveWebhook
  by_cases hsigned : call.IsSigned lib secret
  · rw [webhook_of_isSigned hsigned]
    cases hpayload : lib.payloadFromSlice call.body with
    | error e => rfl
    | ok payload => exact absurd ⟨hsigned, payload, hpayload, rfl⟩ (h _)
  · rw [webhook_of_not_isSigned hsigned]

theorem delivery?_eq_some : call.delivery? lib secret = some d ↔ call.IsDelivery lib secret d := by
  simp only [WebhookCall.delivery?, WebhookCall.IsDelivery, WebhookCall.IsSigned,
    Option.bind_eq_some_iff, Option.ite_none_right_eq_some, Option.map_eq_some_iff,
    verifyWebhookSignature_iff, Option.mem_def]
  constructor
  · rintro ⟨s, hs, signature, hsignature, hhex, payload, hpayload, hd⟩
    refine ⟨⟨s, hs, signature, hsignature, hhex⟩, payload, ?_, hd.symm⟩
    cases hread : lib.payloadFromSlice call.body with
    | error e => rw [hread] at hpayload; cases hpayload
    | ok payload' => rw [hread] at hpayload; cases hpayload; rfl
  · rintro ⟨⟨s, hs, signature, hsignature, hhex⟩, payload, hpayload, hd⟩
    refine ⟨s, hs, signature, hsignature, hhex, payload, ?_, hd.symm⟩
    rw [hpayload]
    rfl

end

end LicenseServer
