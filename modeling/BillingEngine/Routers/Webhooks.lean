import BillingEngine.Routers.Usage
import BillingEngine.Services.StripeWebhooks

namespace Router

-- `stripe.Webhook.construct_event`, with the message of the exception that the router catches.
abbrev ConstructEvent :=
  (payload : List UInt8) → (sigHeader secret : String) → Except String WebhookEvent

inductive WebhookResponse
  | ok (result : WebhookResult)
  | signatureInvalid (message : String) -- `WEBHOOK_SIGNATURE_INVALID`
  | internalError                       -- `INTERNAL_ERROR`
  deriving DecidableEq, Repr

def WebhookResponse.statusCode : WebhookResponse → Nat
  | ok _               => 200
  | signatureInvalid _ => 400
  | internalError      => 500

-- `POST /v1/webhooks/stripe`, when no other transaction runs meanwhile.
def stripeWebhook (constructEvent : ConstructEvent) (secret : String) (db : Database)
    (rawBody : List UInt8) (stripeSignature : String) (now : Instant) :
    WebhookResponse × Database :=
  match constructEvent rawBody stripeSignature secret with
  | .error exc => (.signatureInvalid s!"Webhook signature verification failed: {exc}", db)
  | .ok event  =>
    match StripeWebhookHandler.handleEvent db event now with
    | (.ok result, db') => (.ok result, db')
    | (.error _, db')   => (.internalError, db')

end Router
