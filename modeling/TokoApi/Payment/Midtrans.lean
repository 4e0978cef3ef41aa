import TokoApi.Lib.Json
import TokoApi.Lib.Numbers
import TokoApi.Payment.Webhook

/-!
# The Midtrans provider

`verifyWebhook` of `internal/payment/midtrans.go`. The signature is a keyed hash
of the order id, the status code and the gross amount, one written after the
other with no separator, and of the server key. It covers the text of the three
together, and nothing else of the notification.
-/
namespace TokoApi.Payment

open Lib.Numbers Lib.Text

/-- The provider's server key, with the library functions its verification calls:
the hexadecimal HMAC-SHA512 of a message under a key, and `strconv.ParseFloat` on the
texts that are no decimals, the hexadecimal ones and those with underscores. -/
structure Midtrans where
  serverKey : String
  hmacSha512Hex : String → String → String
  parseFloatOther : String → Option ℚ

/-- The fields of a notification that the verification reads. -/
structure MidtransPayload where
  orderID : String
  statusCode : String
  grossAmount : String
  signatureKey : String
  transactionStatus : String
  deriving DecidableEq

inductive MidtransError where
  | json
  | missingOrderID
  | invalidSignature
  | amount
  deriving DecidableEq

def unmarshalPayload (body : List UInt8) : Option MidtransPayload :=
  match Lib.Json.parse body with
  | some .null => some ⟨"", "", "", "", ""⟩
  | some (.object ms) => do
    return ⟨← Lib.Json.stringField "order_id" ms, ← Lib.Json.stringField "status_code" ms,
      ← Lib.Json.stringField "gross_amount" ms, ← Lib.Json.stringField "signature_key" ms,
      ← Lib.Json.stringField "transaction_status" ms⟩
  | _ => none

def normaliseMidtransStatus (status : String) : String :=
  let s := toLower (trimSpace status)
  if s = "capture" ∨ s = "settlement" then "PAID"
  else if s = "pending" then "PENDING"
  else if s = "deny" ∨ s = "cancel" then "FAILED"
  else if s = "expire" then "EXPIRED"
  else if s = "refund" then "REFUNDED"
  else "PENDING"

namespace Midtrans

variable (m : Midtrans)

def computeSignature (orderID statusCode grossAmount : String) : String :=
  let key := trimSpace m.serverKey
  if key = "" then ""
  else m.hmacSha512Hex key (orderID ++ statusCode ++ grossAmount ++ key)

def parseMidtransAmount (value : String) : Option Int :=
  let trimmed := trimSpace value
  if trimmed = "" then some 0
  else if '.' ∉ trimmed.toList then parseInt64 trimmed
  else
    let f := if (decimal trimmed).isSome then parseFloat trimmed else m.parseFloatOther trimmed
    f.map fun f => toInt64 (roundAway f)

def verifyPayload (p : MidtransPayload) : Except MidtransError WebhookVerifyResult :=
  if p.orderID = "" then .error .missingOrderID
  else
    let expected := m.computeSignature p.orderID p.statusCode p.grossAmount
    let provided := trimSpace p.signatureKey
    if expected = "" ∨ provided = "" ∨ expected ≠ provided then .error .invalidSignature
    else match m.parseMidtransAmount p.grossAmount with
      | none => .error .amount
      | some amount => .ok ⟨p.orderID, amount, normaliseMidtransStatus p.transactionStatus⟩

def verifyWebhook (body : List UInt8) : Except MidtransError WebhookVerifyResult :=
  match unmarshalPayload body with
  | none => .error .json
  | some p => m.verifyPayload p

/-- The provider as the webhook handler calls it: it never answers an error, and
every failed verification is a result that is not valid. -/
def provider (r : Request) : Verdict :=
  match m.verifyWebhook r.body.toUTF8.toList with
  | .ok result => .valid result
  | .error _ => .invalid

theorem provider_valid {r : Request} {v : WebhookVerifyResult} (h : m.provider r = .valid v) :
    ∃ p, unmarshalPayload r.body.toUTF8.toList = some p ∧ m.verifyPayload p = .ok v := by
  unfold provider verifyWebhook at h
  grind

end Midtrans

/-! ## What the signature covers -/

/-- The text that is signed, up to the key that ends it. -/
def MidtransPayload.signed (p : MidtransPayload) : String :=
  p.orderID ++ p.statusCode ++ p.grossAmount

namespace Midtrans

variable {m : Midtrans} {p p₁ p₂ : MidtransPayload} {r r₁ r₂ : WebhookVerifyResult}

theorem computeSignature_ne {o c g : String} (h : m.computeSignature o c g ≠ "") :
    m.computeSignature o c g =
      m.hmacSha512Hex (trimSpace m.serverKey) (o ++ c ++ g ++ trimSpace m.serverKey) := by
  by_cases hkey : trimSpace m.serverKey = ""
  · exact absurd (if_pos hkey) h
  · exact if_neg hkey

theorem verifyPayload_ok (h : m.verifyPayload p = .ok r) :
    p.orderID ≠ "" ∧
    m.hmacSha512Hex (trimSpace m.serverKey) (p.signed ++ trimSpace m.serverKey) =
      trimSpace p.signatureKey ∧
    m.computeSignature p.orderID p.statusCode p.grossAmount ≠ "" ∧
    m.parseMidtransAmount p.grossAmount = some r.amount ∧
    r = ⟨p.orderID, r.amount, normaliseMidtransStatus p.transactionStatus⟩ := by
  unfold verifyPayload at h
  split at h
  · cases h
  · next hid =>
    dsimp only at h
    split at h
    · cases h
    · next hsig =>
      push Not at hsig
      split at h
      · cases h
      · next amount hamount =>
        cases h
        exact ⟨hid, (computeSignature_ne hsig.1).symm.trans hsig.2.2, hsig.1, hamount, rfl⟩

theorem signed_eq (hinj : Function.Injective (m.hmacSha512Hex (trimSpace m.serverKey)))
    (h₁ : m.verifyPayload p₁ = .ok r₁) (h₂ : m.verifyPayload p₂ = .ok r₂)
    (hsig : p₁.signatureKey = p₂.signatureKey) : p₁.signed = p₂.signed := by
  have hmac := (verifyPayload_ok h₁).2.1.trans
    ((congrArg trimSpace hsig).trans (verifyPayload_ok h₂).2.1.symm)
  exact String.append_left_inj _ |>.mp (hinj hmac)

theorem verifyPayload_status (h : m.verifyPayload p = .ok r) (status : String) :
    m.verifyPayload { p with transactionStatus := status } =
      .ok { r with status := normaliseMidtransStatus status } := by
  obtain ⟨hid, hmac, hexpected, hamount, hr⟩ := verifyPayload_ok h
  have hequal := (computeSignature_ne hexpected).trans hmac
  have hprovided : trimSpace p.signatureKey ≠ "" := hequal ▸ hexpected
  unfold verifyPayload
  rw [if_neg hid]
  dsimp only
  rw [if_neg (by simp [hprovided, hequal]), hamount, hr]

end Midtrans

theorem append_split {a b c d : String} (h : a ++ b = c ++ d) (hl : a.length = c.length) :
    a = c ∧ b = d := by
  have hlist : a.toList ++ b.toList = c.toList ++ d.toList := by
    simpa only [String.toList_append] using congrArg String.toList h
  obtain ⟨ha, hb⟩ := List.append_inj hlist (by simpa only [String.length_toList] using hl)
  exact ⟨String.toList_injective ha, String.toList_injective hb⟩

namespace MidtransPayload

variable {p₁ p₂ : MidtransPayload}

theorem orderID_eq_iff (h : p₁.signed = p₂.signed) :
    p₁.orderID = p₂.orderID ↔ p₁.orderID.length = p₂.orderID.length := by
  refine ⟨congrArg String.length, fun hl => ?_⟩
  have hsplit : p₁.orderID ++ (p₁.statusCode ++ p₁.grossAmount) =
      p₂.orderID ++ (p₂.statusCode ++ p₂.grossAmount) := by
    simpa only [signed, String.append_assoc] using h
  exact (append_split hsplit hl).1

theorem grossAmount_eq (h : p₁.signed = p₂.signed)
    (hl : p₁.grossAmount.length = p₂.grossAmount.length) : p₁.grossAmount = p₂.grossAmount := by
  refine (append_split h ?_).2
  have htotal := congrArg String.length h
  simp only [signed, String.length_append] at htotal ⊢
  omega

end MidtransPayload

/-- Two notifications accepted with one signature agree on the text that is
signed. Where the order ids end in it is not signed, nor where the amounts begin,
and the status is not in it at all. -/
theorem accepted_same_signature (m : Midtrans)
    (hinj : Function.Injective (m.hmacSha512Hex (trimSpace m.serverKey)))
    (b₁ b₂ : List UInt8) (p₁ p₂ : MidtransPayload) (r₁ r₂ : WebhookVerifyResult)
    (hp₁ : unmarshalPayload b₁ = some p₁) (hp₂ : unmarshalPayload b₂ = some p₂)
    (h₁ : m.verifyWebhook b₁ = .ok r₁) (h₂ : m.verifyWebhook b₂ = .ok r₂)
    (hsig : p₁.signatureKey = p₂.signatureKey) :
    p₁.signed = p₂.signed ∧
    (r₁.orderID = r₂.orderID ↔ p₁.orderID.length = p₂.orderID.length) ∧
    (p₁.grossAmount.length = p₂.grossAmount.length → r₁.amount = r₂.amount) ∧
    ∀ (b : List UInt8) (status : String),
      unmarshalPayload b = some { p₁ with transactionStatus := status } →
      m.verifyWebhook b = .ok { r₁ with status := normaliseMidtransStatus status } := by
  simp only [Midtrans.verifyWebhook, hp₁] at h₁
  simp only [Midtrans.verifyWebhook, hp₂] at h₂
  have hsigned := Midtrans.signed_eq hinj h₁ h₂ hsig
  obtain ⟨-, -, -, ha₁, hr₁⟩ := Midtrans.verifyPayload_ok h₁
  obtain ⟨-, -, -, ha₂, hr₂⟩ := Midtrans.verifyPayload_ok h₂
  refine ⟨hsigned, ?_, fun hl => ?_, fun b status hb => ?_⟩
  · rw [hr₁, hr₂]
    exact MidtransPayload.orderID_eq_iff hsigned
  · rw [MidtransPayload.grossAmount_eq hsigned hl, ha₂] at ha₁
    exact (Option.some.inj ha₁).symm
  · simp only [Midtrans.verifyWebhook, hb]
    exact Midtrans.verifyPayload_status h₁ status

theorem Midtrans.verifyWebhook_of (m : Midtrans) {body : List UInt8} {p : MidtransPayload}
    (hp : unmarshalPayload body = some p) : m.verifyWebhook body = m.verifyPayload p := by
  simp only [Midtrans.verifyWebhook, hp]

def openMidtrans : Midtrans where
  serverKey := "key"
  hmacSha512Hex _ message := "mac-" ++ message
  parseFloatOther _ := none

theorem openMidtrans_injective (key : String) :
    Function.Injective (openMidtrans.hmacSha512Hex key) :=
  fun _ _ h => (String.append_right_inj _).mp h

def notification (orderID statusCode grossAmount signatureKey transactionStatus : String) :
    List UInt8 :=
  ("\x7b\"order_id\":\"" ++ orderID ++ "\",\"status_code\":\"" ++ statusCode ++
    "\",\"gross_amount\":\"" ++ grossAmount ++ "\",\"signature_key\":\"" ++ signatureKey ++
    "\",\"transaction_status\":\"" ++ transactionStatus ++ "\"\x7d").toUTF8.toList

/-- A payment is pending, and then settled. -/
theorem accepted_twice_agree :
    let b₁ := notification "7" "200" "5000" "mac-72005000key" "pending"
    let b₂ := notification "7" "200" "5000" "mac-72005000key" "settlement"
    ∃ r₁ r₂, openMidtrans.verifyWebhook b₁ = .ok r₁ ∧ openMidtrans.verifyWebhook b₂ = .ok r₂ ∧
      r₁.orderID = r₂.orderID ∧ r₁.amount = r₂.amount := by
  intro b₁ b₂
  have hp₁ : unmarshalPayload b₁ =
      some ⟨"7", "200", "5000", "mac-72005000key", "pending"⟩ := by decide +kernel
  have hp₂ : unmarshalPayload b₂ =
      some ⟨"7", "200", "5000", "mac-72005000key", "settlement"⟩ := by decide +kernel
  have h₁ : openMidtrans.verifyWebhook b₁ = .ok ⟨"7", 5000, "PENDING"⟩ :=
    (openMidtrans.verifyWebhook_of hp₁).trans (by decide +kernel)
  have h₂ : openMidtrans.verifyWebhook b₂ = .ok ⟨"7", 5000, "PAID"⟩ :=
    (openMidtrans.verifyWebhook_of hp₂).trans (by decide +kernel)
  obtain ⟨-, hid, hamount, -⟩ := accepted_same_signature openMidtrans
    (openMidtrans_injective _) b₁ b₂ _ _ _ _ hp₁ hp₂ h₁ h₂ rfl
  exact ⟨_, _, h₁, h₂, hid.mpr rfl, hamount rfl⟩

/-- With one signature, the capture of order 7 is also the refund of order 71, of
another amount. -/
theorem accepted_as_another :
    (∀ key, Function.Injective (openMidtrans.hmacSha512Hex key)) ∧
    (unmarshalPayload (notification "7" "120" "5000" "mac-71205000key" "capture")).map
      (·.signatureKey) = some "mac-71205000key" ∧
    (unmarshalPayload (notification "71" "205" "000" "mac-71205000key" "refund")).map
      (·.signatureKey) = some "mac-71205000key" ∧
    openMidtrans.verifyWebhook (notification "7" "120" "5000" "mac-71205000key" "capture") =
      .ok ⟨"7", 5000, "PAID"⟩ ∧
    openMidtrans.verifyWebhook (notification "71" "205" "000" "mac-71205000key" "refund") =
      .ok ⟨"71", 0, "REFUNDED"⟩ := by
  have hcapture : unmarshalPayload (notification "7" "120" "5000" "mac-71205000key" "capture") =
      some ⟨"7", "120", "5000", "mac-71205000key", "capture"⟩ := by decide +kernel
  have hrefund : unmarshalPayload (notification "71" "205" "000" "mac-71205000key" "refund") =
      some ⟨"71", "205", "000", "mac-71205000key", "refund"⟩ := by decide +kernel
  refine ⟨openMidtrans_injective, by rw [hcapture]; rfl, by rw [hrefund]; rfl, ?_, ?_⟩
  · exact (openMidtrans.verifyWebhook_of hcapture).trans (by decide +kernel)
  · exact (openMidtrans.verifyWebhook_of hrefund).trans (by decide +kernel)

end TokoApi.Payment
