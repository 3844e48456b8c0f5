/-
FlyDesk/Providers/Duffel/Mapper.lean

From Duffel's raw payloads to the domain models.  The mapper raises where a
domain model rejects what it is given and nowhere else: everything it takes
out of a payload, the schema has put there, and it looks before it takes the
first item of a list (`Duffel.raises_mapOffer`).
-/
import FlyDesk.Lib.Raises
import FlyDesk.Providers.Duffel
import FlyDesk.Providers.Duffel.Schemas

namespace FlyDesk

open Lib

namespace Duffel

/-- `_cabin`; an empty string is no cabin either. -/
def cabin (value : Option String) : Option CabinClass :=
  value.bind CabinClass.ofValue

/-- `_passenger_type`. -/
def passengerType (value : Option String) : PassengerType :=
  (value.bind PassengerType.ofValue).getD .adult

/-- `_place_type`. -/
def placeType (value : Option String) : PlaceType :=
  (value.bind PlaceType.ofValue).getD .airport

variable (P : Pydantic)

/-- `_place`. -/
def place (p : DuffelPlace) : Except Exn Place :=
  validated (Place.create P (.ofOption p.iataCode) (.ofOption p.name) (.ofOption p.cityName)
    (placeType p.type))

/-- `_carrier`. -/
def carrier (c : DuffelCarrier) : Except Exn Carrier :=
  validated (Carrier.create P c.iataCode c.name)

/-- The carrier of a segment that may have none. -/
def carrier? : Option DuffelCarrier → Except Exn (Option Carrier)
  | none => .ok none
  | some c => (carrier P c).map some

/-- `_segment`. -/
def segment (s : DuffelSegment) : Except Exn Segment := do
  let cabin := s.passengers.head?.bind fun p => cabin p.cabinClass
  let origin ← place P s.origin
  let destination ← place P s.destination
  let marketingCarrier ← carrier P s.marketingCarrier
  let operatingCarrier ← carrier? P s.operatingCarrier
  validated (Segment.create P s.id origin destination s.departingAt s.arrivingAt
    marketingCarrier operatingCarrier
    (s.marketingCarrier.iataCode ++ s.marketingCarrierFlightNumber)
    (s.aircraft.bind DuffelAircraft.name) cabin (.ofOption s.duration))

/-- `_slice`. -/
def slice (sl : DuffelSlice) : Except Exn Slice := do
  let origin ← place P sl.origin
  let destination ← place P sl.destination
  let segments ← sl.segments.mapM (segment P)
  validated (Slice.create P sl.id origin destination (.ofOption sl.duration) segments)

/-- `map_offer`. -/
def mapOffer (o : DuffelOffer) : Except Exn Offer := do
  let firstSegment := o.slices.head?.bind fun sl => sl.segments.head?
  let cabin := firstSegment.bind fun s => s.passengers.head?.bind fun p => cabin p.cabinClass
  let owner ← carrier P o.owner
  let total ← validated (Money.create P o.totalAmount o.totalCurrency)
  let slices ← o.slices.mapM (slice P)
  validated (Offer.create o.id .duffel owner total slices
    (o.passengers.map fun p => passengerType p.type) cabin o.expiresAt)

/-- `map_order`. -/
def mapOrder (data : DuffelOrderData) (passengers : List BookingPassenger)
    (now : DuffelProvider.OrderClock) : Except Exn Order := do
  let total ← validated (Money.create P data.totalAmount data.totalCurrency)
  let slices ← data.slices.mapM (slice P)
  .ok (DuffelProvider.mapOrder
    { id := data.id, bookingReference := data.bookingReference, total, slices } passengers now)

/-- The offers of a search: the body of the response, mapped. -/
def mapOffers (raw : Json) : Except Exn (List Offer) := do
  let data ← validated (DuffelOfferRequestResponse.data P raw)
  data.offers.mapM (mapOffer P)

end Duffel

/-! ### What the mapper raises -/

/-- The only exception is pydantic's. -/
def OnlyInvalid {α : Type} (x : Except Exn α) : Prop :=
  Raises (· = .validationError) x

theorem OnlyInvalid.bind_iff {α β : Type} {x : Except Exn α} {f : α → Except Exn β} :
    OnlyInvalid (x >>= f) ↔ OnlyInvalid x ∧ ∀ a, x = .ok a → OnlyInvalid (f a) :=
  Raises.bind_iff

theorem onlyInvalid_validated {α : Type} {o : Option α} : OnlyInvalid (validated o) := by
  cases o with
  | none => exact raises_error.mpr rfl
  | some a => exact Raises.ok

namespace Duffel

variable (P : Pydantic)

theorem raises_segment (s : DuffelSegment) : OnlyInvalid (segment P s) := by
  refine Raises.bind onlyInvalid_validated fun _ _ => ?_
  refine Raises.bind onlyInvalid_validated fun _ _ => ?_
  refine Raises.bind onlyInvalid_validated fun _ _ => ?_
  refine Raises.bind ?_ fun _ _ => onlyInvalid_validated
  rcases s.operatingCarrier with - | c
  · exact Raises.ok
  · exact Raises.map onlyInvalid_validated

theorem raises_slice (sl : DuffelSlice) : OnlyInvalid (slice P sl) := by
  refine Raises.bind onlyInvalid_validated fun _ _ => ?_
  refine Raises.bind onlyInvalid_validated fun _ _ => ?_
  exact Raises.bind (Raises.mapM fun s _ => raises_segment P s) fun _ _ => onlyInvalid_validated

theorem raises_mapOffer (o : DuffelOffer) : OnlyInvalid (mapOffer P o) := by
  refine Raises.bind onlyInvalid_validated fun _ _ => ?_
  refine Raises.bind onlyInvalid_validated fun _ _ => ?_
  exact Raises.bind (Raises.mapM fun sl _ => raises_slice P sl) fun _ _ => onlyInvalid_validated

theorem raises_mapOffers (raw : Json) : OnlyInvalid (mapOffers P raw) :=
  Raises.bind onlyInvalid_validated fun _ _ => Raises.mapM fun o _ => raises_mapOffer P o

theorem raises_mapOrder (data : DuffelOrderData) (passengers : List BookingPassenger)
    (now : DuffelProvider.OrderClock) : OnlyInvalid (mapOrder P data passengers now) := by
  refine Raises.bind onlyInvalid_validated fun _ _ => ?_
  exact Raises.bind (Raises.mapM fun sl _ => raises_slice P sl) fun _ _ => Raises.ok

end Duffel

end FlyDesk
