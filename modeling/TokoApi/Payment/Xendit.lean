import TokoApi.Payment.Midtrans

/-!
# The Xendit provider

`VerifyWebhook` of `internal/payment/xendit.go`. The signature is a keyed hash of the
whole body, in a header. The amount is a `json.Number`: it is read as an integer, and
where that gives zero, be it for a missing amount or for one that is no integer, as a
float whose fraction is dropped. No amount is an error.
-/
namespace TokoApi.Payment

open Lib.Numbers Lib.Text

/-- The provider's secret key, and the hexadecimal HMAC-SHA256 of a body under a key. -/
structure Xendit where
  secretKey : String
  hmacSha256Hex : String → List UInt8 → String

/-- The fields of a callback that the verification reads. -/
structure XenditPayload where
  externalID : String
  amount : String
  status : String
  deriving DecidableEq

inductive XenditError where
  | invalidSignature
  | json
  deriving DecidableEq

def unmarshalCallback (body : List UInt8) : Option XenditPayload :=
  match Lib.Json.parse body with
  | some .null => some ⟨"", "", ""⟩
  | some (.object ms) => do
    return ⟨← Lib.Json.stringField "external_id" ms, ← Lib.Json.numberField "amount" ms,
      ← Lib.Json.stringField "status" ms⟩
  | _ => none

def normaliseXenditStatus (status : String) : String :=
  let s := toLower (trimSpace status)
  if s = "paid" ∨ s = "settled" ∨ s = "success" then "PAID"
  else if s = "pending" ∨ s = "invoice.paid_pending_verification" then "PENDING"
  else if s = "expired" then "EXPIRED"
  else if s = "failed" ∨ s = "canceled" then "FAILED"
  else "PENDING"

namespace Xendit

variable (x : Xendit)

def computeSignature (body : List UInt8) : String :=
  let key := trimSpace x.secretKey
  if key = "" then "" else x.hmacSha256Hex key body

/-- The two readings of `payload.Amount`. -/
def parseXenditAmount (amount : String) : Int :=
  if int64Value amount = 0 then ((parseFloat amount).map fun f => toInt64 (truncate f)).getD 0
  else int64Value amount

/-- What is done with a payload that has been read; a status stands in for a missing id. -/
def verified (p : XenditPayload) : WebhookVerifyResult where
  orderID := if p.externalID = "" then p.status else p.externalID
  amount := parseXenditAmount p.amount
  status := normaliseXenditStatus p.status

def verifyWebhook (signature : String) (body : List UInt8) :
    Except XenditError WebhookVerifyResult :=
  let expected := x.computeSignature body
  let provided := trimSpace signature
  if expected = "" ∨ provided = "" ∨ expected ≠ provided then .error .invalidSignature
  else
    match unmarshalCallback body with
    | none => .error .json
    | some p => .ok (verified p)

/-- The provider as the webhook handler calls it. -/
def provider (r : Request) : Verdict :=
  match x.verifyWebhook r.signature r.body.toUTF8.toList with
  | .ok result => .valid result
  | .error _ => .invalid

theorem provider_valid {r : Request} {v : WebhookVerifyResult} (h : x.provider r = .valid v) :
    ∃ p, unmarshalCallback r.body.toUTF8.toList = some p ∧ v = verified p := by
  unfold provider verifyWebhook at h
  grind

end Xendit

end TokoApi.Payment
