import TokoApi.Shipping.Service

/-!
# The courier webhook

`shipping.Webhook.Handle` (shipping/webhook.go): the replay check, the decoding of
the payload and the statements of `AppendEvent`, one step for each call to Redis
or PostgreSQL. The replay key is set before anything else is looked at, and no
path gives it back.
-/
namespace TokoApi.Shipping

open Db Lib.Text Lib.Threads

structure WebhookPayload where
  orderID : String
  trackingNumber : String
  externalStatus : String
  description : Option String
  location : Option String
  occurredAt : Option Int
  deriving DecidableEq

structure WebhookRequest where
  courier : String
  body : String
  query : String → String

/-- The handler's replay time and the library functions it calls. -/
structure Webhook where
  replayTTL : Int
  sha256Hex : String → String
  unmarshal : String → Option WebhookPayload
  parseRFC3339 : String → Option Int
  parseUUID : String → Option Nat

inductive WebhookPc where
  | setNX
  | append (a : EventArgs) (pc : EventPc)
  | done (r : Response)
  deriving DecidableEq

structure WebhookThread where
  key : String
  request : WebhookRequest
  pc : WebhookPc

namespace Webhook

variable (h : Webhook) (r : WebhookRequest)

def replayKey : String := "shwh:" ++ r.courier ++ ":" ++ h.sha256Hex r.body

/-- What the body leaves open is taken from the query string. -/
def decodeWebhookPayload : Except String WebhookPayload :=
  let payload := (if r.body = "" then none else h.unmarshal r.body).getD ⟨"", "", "", none, none, none⟩
  let text (name : String) : Option String := optionalText (trimSpace (r.query name))
  let orderID := if payload.orderID = "" then r.query "orderId" else payload.orderID
  let tracking :=
    if payload.trackingNumber = "" then r.query "tracking" else payload.trackingNumber
  let status := if payload.externalStatus = "" then r.query "status" else payload.externalStatus
  if orderID = "" then .error "orderId is required"
  else if status = "" then .error "status is required"
  else .ok ⟨orderID, tracking, status, payload.description.or (text "description"),
    payload.location.or (text "location"),
    payload.occurredAt.or ((text "occurredAt").bind h.parseRFC3339)⟩

/-- From the replay check to the first statement. -/
def afterReplay : WebhookPc :=
  match h.decodeWebhookPayload r with
  | .error err => .done ⟨400, "BAD_REQUEST", err⟩
  | .ok p =>
    match h.parseUUID p.orderID with
    | none => .done ⟨400, "BAD_REQUEST", "invalid order id"⟩
    | some id =>
      if mapExternalToStatus p.externalStatus = .pending then
        .done ⟨400, "BAD_REQUEST", "unrecognised external status"⟩
      else
        .append ⟨id, mapExternalToStatus p.externalStatus, p.description, p.location, p.occurredAt,
          r.body⟩ .getShipment

def start : WebhookThread := ⟨h.replayKey r, r, .setNX⟩

end Webhook

def eventResponse : EventResult → Response
  | .ok _ => noContent
  | .error .invalidShipmentTransition =>
    ⟨409, "INVALID_STATE", Error.text .invalidShipmentTransition⟩
  | .error .noRows => ⟨404, "NOT_FOUND", "shipment not found"⟩
  | .error _ => ⟨500, "INTERNAL", "failed to record shipment event"⟩

/-- The answer follows the last statement of `AppendEvent`. -/
def afterEvent (a : EventArgs) : EventPc → WebhookPc
  | .returned r => .done (eventResponse r)
  | pc => .append a pc

def webhookStep (h : Webhook) (i : Nat) (s : Store) (t : WebhookThread) (x : Call) :
    Option (Store × WebhookThread) :=
  match t.pc, x with
  | .setNX, .fail _ =>
    some (s, { t with pc := .done ⟨500, "INTERNAL", "replay protection failed"⟩ })
  | .setNX, .ok =>
    match s.replay.setNX s.now h.replayTTL t.key with
    | (false, _) => some (s, { t with pc := .done ⟨409, "REPLAY", "duplicate webhook payload"⟩ })
    | (true, keys) => some ({ s with replay := keys }, { t with pc := h.afterReplay t.request })
  | .append a pc, x =>
    (eventStep i s a pc x).map fun (s', pc') => (s', { t with pc := afterEvent a pc' })
  | .done _, _ => none

end TokoApi.Shipping
