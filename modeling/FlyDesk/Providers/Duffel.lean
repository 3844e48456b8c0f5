/-
FlyDesk/Providers/Duffel.lean

The Duffel provider as the booking path sees it: how the outcome of an HTTP
request becomes a value or an exception, and the order that is made of the
data of a created one.
-/
import FlyDesk.Domain.Models
import FlyDesk.Common.Exceptions

namespace FlyDesk

/-- What comes back for a request.  `body` is what reading the body as JSON
and validating it against the raw schema gives. -/
inductive Reply (α : Type)
  | timeout
  | transportError
  | response (status : ℕ) (body : Except Exn α)

namespace DuffelProvider

/-- `DuffelProvider._request`, with the body validated. -/
def request {α : Type} : Reply α → Except Exn α
  | .timeout => .error .providerTimeoutError
  | .transportError => .error .providerError
  | .response status body =>
    if status = 404 then .error .offerNotFoundError
    else if 400 ≤ status then .error .providerError
    else body

/-- The data of a created order, its total and its slices in domain terms. -/
structure OrderData where
  id : String
  bookingReference : Option String
  total : Money
  slices : List Slice

/-- The clock as a booking reads it: for the entry of the history, for the order,
and for the event that is staged with it. -/
structure OrderClock where
  occurredAt : DateTime
  createdAt : DateTime
  stagedAt : DateTime

/-- The order `map_order` builds. -/
def mapOrder (data : OrderData) (passengers : List BookingPassenger) (now : OrderClock) :
    Order where
  id := data.id
  provider := .duffel
  providerOrderId := data.id
  bookingReference := data.bookingReference
  status := .confirmed
  total := data.total
  slices := data.slices
  passengers := passengers
  idempotencyKey := none
  createdAt := now.createdAt
  events :=
    [{ type := "order.created"
       occurredAt := now.occurredAt
       detail := some ("Duffel order " ++ data.id ++ " (PNR " ++
         data.bookingReference.getD "None" ++ ")") }]
  outbox := []

end DuffelProvider

end FlyDesk
