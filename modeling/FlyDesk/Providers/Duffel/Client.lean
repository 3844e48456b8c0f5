/-
FlyDesk/Providers/Duffel/Client.lean

`DuffelProvider.create_order` over HTTP: the offer is fetched again, its slots
are bound to the passengers, the order is posted and the answer mapped.

Duffel is two functions, what it answers to the request for an offer and what
it answers to an order, during one call of the provider.  An answer is an
`HttpOutcome`, of which nothing is assumed; to another call Duffel may answer
otherwise.
-/
import FlyDesk.Providers.Duffel.Mapper

namespace FlyDesk

open Lib

/-! ### Requests -/

/-- What comes of an HTTP request.  `raised` is an exception that is no
`httpx.HTTPError`, such as `httpx.InvalidURL`; a body that is not JSON is
`none`. -/
inductive HttpOutcome
  | timeout
  | transportError
  | raised (exception : String)
  | response (status : ℕ) (body : Option Json)

namespace DuffelProvider

/-- `_request`, and `response.json()` at its end. -/
def send : HttpOutcome → Except Exn Json
  | .timeout => .error .providerTimeoutError
  | .transportError => .error .providerError
  | .raised exception => .error (.thirdParty exception)
  | .response status body =>
    if status = 404 then .error .offerNotFoundError
    else if 400 ≤ status then .error .providerError
    else
      -- outside the `try`: what `json` raises goes to the caller
      match body with
      | none => .error (.thirdParty "JSONDecodeError")
      | some raw => .ok raw

/-- The reply the booking path sees: the body read with a schema. -/
def reply {α : Type} (dec : Decoder α) : HttpOutcome → Option (Reply α)
  | .timeout => some .timeout
  | .transportError => some .transportError
  | .raised _ => none
  | .response status none => some (.response status (.error (.thirdParty "JSONDecodeError")))
  | .response status (some raw) => some (.response status (validated (dec raw)))

/-- Sending and validating is what `request` does with the reply. -/
theorem request_reply {α : Type} {dec : Decoder α} {outcome : HttpOutcome} {r : Reply α}
    (h : reply dec outcome = some r) :
    (send outcome >>= fun raw => validated (dec raw)) = request r := by
  rcases outcome with - | - | _ | ⟨status, body⟩
  · obtain rfl := Option.some.inj h
    rfl
  · obtain rfl := Option.some.inj h
    rfl
  · cases h
  · rcases body with - | raw <;> obtain rfl := Option.some.inj h <;> simp only [send, request]
    · split
      · rfl
      · split <;> rfl
    · split
      · rfl
      · split <;> rfl

/-! ### The order -/

/-- A passenger of a posted order. -/
structure OrderPassenger where
  id : String
  title : String
  gender : String
  givenName : String
  familyName : String
  bornOn : Date
  email : String
  phoneNumber : String
deriving DecidableEq, Repr

/-- `value or default`. -/
def orDefault (value : Option String) (default : String) : String :=
  match value with
  | none => default
  | some s => if s = "" then default else s

/-- The details of a person under the id of a slot. -/
def orderPassenger (slotId : String) (person : BookingPassenger) : OrderPassenger where
  id := slotId
  title := orDefault person.title "mr"
  gender := orDefault person.gender "m"
  givenName := person.givenName
  familyName := person.familyName
  bornOn := person.bornOn
  email := person.email
  phoneNumber := person.phoneNumber

/-- The posted passenger has the details of the person. -/
structure OrderPassenger.Carries (posted : OrderPassenger) (person : BookingPassenger) :
    Prop where
  title : posted.title = orDefault person.title "mr"
  gender : posted.gender = orDefault person.gender "m"
  givenName : posted.givenName = person.givenName
  familyName : posted.familyName = person.familyName
  bornOn : posted.bornOn = person.bornOn
  email : posted.email = person.email
  phoneNumber : posted.phoneNumber = person.phoneNumber

theorem eq_orderPassenger_iff {posted : OrderPassenger} {slotId : String}
    {person : BookingPassenger} :
    posted = orderPassenger slotId person ↔ posted.id = slotId ∧ posted.Carries person := by
  constructor
  · rintro rfl
    exact ⟨rfl, rfl, rfl, rfl, rfl, rfl, rfl, rfl⟩
  · rintro ⟨hid, htitle, hgender, hgiven, hfamily, hborn, hemail, hphone⟩
    rw [orderPassenger, ← hid, ← htitle, ← hgender, ← hgiven, ← hfamily, ← hborn, ← hemail,
      ← hphone]

/-- `duffel_passengers`: `zip` pairs by position and stops with the shorter
list. -/
def orderPassengers (slots : List DuffelOfferPassenger) (passengers : List BookingPassenger) :
    List OrderPassenger :=
  List.zipWith (fun slot person => orderPassenger slot.id person) slots passengers

/-- The body of POST /air/orders, of type "instant" and paid by one "balance"
payment. -/
structure OrderPayload where
  selectedOffers : List String
  currency : String
  amount : Decimal
  passengers : List OrderPassenger

def orderPayload (offer : DuffelOffer) (passengers : List BookingPassenger) : OrderPayload where
  selectedOffers := [offer.id]
  currency := offer.totalCurrency
  amount := offer.totalAmount
  passengers := orderPassengers offer.passengers passengers

/-- How Duffel answers one call of the provider: GET /air/offers/{id} and
POST /air/orders. -/
structure Duffel where
  getOffer : String → HttpOutcome
  postOrder : OrderPayload → HttpOutcome

variable (P : Pydantic) (duffel : Duffel)

/-- The offer as it is fetched again. -/
def fetchOffer (offerId : String) : Except Exn DuffelOffer := do
  let raw ← send (duffel.getOffer offerId)
  validated (DuffelOfferResponse.data P raw)

/-- What the answer to an order becomes. -/
def orderOf (payload : OrderPayload) (passengers : List BookingPassenger) (now : OrderClock) :
    Except Exn Order := do
  let raw ← send (duffel.postOrder payload)
  let data ← validated (DuffelOrderResponse.data P raw)
  FlyDesk.Duffel.mapOrder P data passengers now

/-- What a call of `create_order` posts, and how it ends. -/
structure OrderAttempt where
  posted : Option OrderPayload
  result : Except Exn Order

/-- `create_order`. -/
def createOrder (offerId : String) (passengers : List BookingPassenger) (now : OrderClock) :
    OrderAttempt :=
  match fetchOffer P duffel offerId with
  | .error e => { posted := none, result := .error e }
  | .ok offer =>
    let payload := orderPayload offer passengers
    { posted := some payload, result := orderOf P duffel payload passengers now }

end DuffelProvider

end FlyDesk
