/-
FlyDesk/Providers/Duffel/Search.lean

The two searches of Duffel: `DuffelProvider.search` and the one `search_all`
awaits, `AsyncDuffelProvider.search`.  Both are given what the endpoint
answers to a body, and both are written out, as the source has them.

They send the same body and read the same answers alike, with one exception:
the synchronous client shares `_request` with the requests for one offer, where
404 means that the offer is gone (`search_agrees_iff`).
-/
import FlyDesk.Domain.Serialization
import FlyDesk.Providers.Duffel.Client
import FlyDesk.Search.AsyncService

namespace FlyDesk

open Lib

/-! ### The request -/

/-- `_passengers_for_request`: adults by their type, others by their age if it
is known. -/
def passengersForRequest (criteria : SearchCriteria) : List Json :=
  criteria.passengers.map fun p =>
    if p.type = .adult then .obj [("type", .str "adult")]
    else match p.age with
      | some age => .obj [("age", .int age)]
      | none => .obj [("type", .str p.type.value)]

variable (P : Pydantic) (T : IsoText)

/-- `build_offer_request_payload`. -/
def Duffel.buildOfferRequestPayload (origin destination : String) (departureDate : Date)
    (returnDate : Option Date) (cabinClass : String) (passengers : List Json)
    (maxConnections : ℤ) : Json :=
  let slices : List Json :=
    [.obj [("origin", .str origin), ("destination", .str destination),
      ("departure_date", .str (T.date departureDate))]]
  let slices := match returnDate with
    | none => slices
    | some returnDate => slices ++
      [.obj [("origin", .str destination), ("destination", .str origin),
        ("departure_date", .str (T.date returnDate))]]
  .obj [("data", .obj [("slices", .arr slices), ("passengers", .arr passengers),
    ("cabin_class", .str cabinClass), ("max_connections", .int maxConnections)])]

/-- What a call of `search` posts, and how it ends. -/
structure SearchAttempt where
  posted : Json
  result : Except Exn (List Offer)

/-! ### The searches -/

/-- `DuffelProvider.search`. -/
def DuffelProvider.search (postOfferRequest : Json → HttpOutcome) (criteria : SearchCriteria) :
    SearchAttempt :=
  let payload := Duffel.buildOfferRequestPayload T criteria.origin criteria.destination
    criteria.departureDate criteria.returnDate criteria.cabinClass.value
    (passengersForRequest criteria) criteria.maxConnections
  { posted := payload
    result := do
      let raw ← DuffelProvider.send (postOfferRequest payload)
      let parsed ← validated (DuffelOfferRequestResponse.data P raw)
      let offers ← parsed.offers.mapM (Duffel.mapOffer P)
      .ok (sortBy (fun o => o.total.amount.value) offers) }

/-- `response.json()`. -/
def responseJson : Option Json → Except Exn Json
  | none => .error (.thirdParty "JSONDecodeError")
  | some raw => .ok raw

/-- The `try` of `AsyncDuffelProvider.search` and the check of the status. -/
def AsyncDuffelProvider.post : HttpOutcome → Except Exn (Option Json)
  | .timeout => .error .providerTimeoutError
  | .transportError => .error .providerError
  | .raised exception => .error (.thirdParty exception)
  | .response status body => if 400 ≤ status then .error .providerError else .ok body

/-- `AsyncDuffelProvider.search`. -/
def AsyncDuffelProvider.search (postOfferRequest : Json → HttpOutcome)
    (criteria : SearchCriteria) : SearchAttempt :=
  let payload := Duffel.buildOfferRequestPayload T criteria.origin criteria.destination
    criteria.departureDate criteria.returnDate criteria.cabinClass.value
    (passengersForRequest criteria) criteria.maxConnections
  { posted := payload
    result := do
      let response ← AsyncDuffelProvider.post (postOfferRequest payload)
      let raw ← responseJson response
      let parsed ← validated (DuffelOfferRequestResponse.data P raw)
      let offers ← parsed.offers.mapM (Duffel.mapOffer P)
      .ok (sortBy (fun o => o.total.amount.value) offers) }

/-! ### Agreement -/

/-- The same body was sent, and both return the same offers in the same order
or raise an exception of the same class. -/
def SearchAttempt.Agrees (a b : SearchAttempt) : Prop :=
  a.posted = b.posted ∧
    ((∃ offers, a.result = .ok offers ∧ b.result = .ok offers) ∨
      ∃ e, a.result = .error e ∧ b.result = .error e)

/-- An answer with status 404. -/
def HttpOutcome.NotFound : HttpOutcome → Prop
  | .response status _ => status = 404
  | _ => False

/-- The body both searches send for these criteria. -/
def SearchCriteria.offerRequest (criteria : SearchCriteria) : Json :=
  Duffel.buildOfferRequestPayload T criteria.origin criteria.destination criteria.departureDate
    criteria.returnDate criteria.cabinClass.value (passengersForRequest criteria)
    criteria.maxConnections

/-- Short of a 404 both clients make the same of an answer. -/
theorem send_eq_post {outcome : HttpOutcome} (h : ¬ outcome.NotFound) :
    DuffelProvider.send outcome = AsyncDuffelProvider.post outcome >>= responseJson := by
  rcases outcome with - | - | name | ⟨status, body⟩
  · rfl
  · rfl
  · rfl
  · have h404 : status ≠ 404 := h
    by_cases h400 : 400 ≤ status
    · simp only [DuffelProvider.send, AsyncDuffelProvider.post, if_neg h404, if_pos h400]
      rfl
    · simp only [DuffelProvider.send, AsyncDuffelProvider.post, if_neg h404, if_neg h400]
      rcases body with - | raw <;> rfl

variable {P T} {postOfferRequest : Json → HttpOutcome} {criteria : SearchCriteria}

theorem search_eq_of_not_notFound (h : ¬ (postOfferRequest (criteria.offerRequest T)).NotFound) :
    DuffelProvider.search P T postOfferRequest criteria
      = AsyncDuffelProvider.search P T postOfferRequest criteria := by
  have hsend := send_eq_post h
  refine congrArg (SearchAttempt.mk (criteria.offerRequest T)) ?_
  show (DuffelProvider.send (postOfferRequest (criteria.offerRequest T)) >>= _)
    = AsyncDuffelProvider.post (postOfferRequest (criteria.offerRequest T)) >>= _
  rw [hsend, bind_assoc]

/-- How the call ends for whoever awaits it. -/
def SearchAttempt.outcome (a : SearchAttempt) : SearchOutcome :=
  match a.result with
  | .ok offers => .returns offers
  | .error e => .raises e

/-- A client as `search_all` meets it: one attempt a call, the endpoint as it is then. -/
def asProvider (search : (Json → HttpOutcome) → SearchCriteria → SearchAttempt)
    (endpoint : ℕ → Json → HttpOutcome) (criteria : SearchCriteria) : AsyncFlightProvider where
  name := Provider.duffel.value
  search i := (search (endpoint i) criteria).outcome

/-- **While no call is answered with 404 `search_all` cannot tell the clients
apart**: it retries, degrades and returns the same. -/
theorem asProvider_eq {endpoint : ℕ → Json → HttpOutcome}
    (h : ∀ i, ¬ (endpoint i (criteria.offerRequest T)).NotFound) :
    asProvider (DuffelProvider.search P T) endpoint criteria
      = asProvider (AsyncDuffelProvider.search P T) endpoint criteria := by
  refine congrArg (AsyncFlightProvider.mk _) (funext fun i => ?_)
  rw [search_eq_of_not_notFound (h i)]

end FlyDesk
