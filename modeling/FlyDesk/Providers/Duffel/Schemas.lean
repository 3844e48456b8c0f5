/-
FlyDesk/Providers/Duffel/Schemas.lean

The raw payloads of Duffel.  Each schema is a record and its decoder; other
fields of a payload are ignored, and a field that is relied on has to fit.
-/
import FlyDesk.Domain.Pydantic

namespace FlyDesk

open Lib Decoder

structure DuffelPlace where
  iataCode : Option String
  name : Option String
  cityName : Option String
  type : Option String

def DuffelPlace.decode : Decoder DuffelPlace := model fun o => do
  let iataCode ← defaulted (o.get? "iata_code") none (nullable str)
  let name ← defaulted (o.get? "name") none (nullable str)
  let cityName ← defaulted (o.get? "city_name") none (nullable str)
  let type ← defaulted (o.get? "type") none (nullable str)
  some { iataCode, name, cityName, type }

structure DuffelCarrier where
  iataCode : String
  name : Option String

def DuffelCarrier.decode : Decoder DuffelCarrier := model fun o => do
  let iataCode ← required (o.get? "iata_code") str
  let name ← defaulted (o.get? "name") none (nullable str)
  some { iataCode, name }

structure DuffelAircraft where
  iataCode : Option String
  name : Option String

def DuffelAircraft.decode : Decoder DuffelAircraft := model fun o => do
  let iataCode ← defaulted (o.get? "iata_code") none (nullable str)
  let name ← defaulted (o.get? "name") none (nullable str)
  some { iataCode, name }

structure DuffelSegmentPassenger where
  passengerId : Option String
  cabinClass : Option String
  cabinClassMarketingName : Option String
  fareBasisCode : Option String

def DuffelSegmentPassenger.decode : Decoder DuffelSegmentPassenger := model fun o => do
  let passengerId ← defaulted (o.get? "passenger_id") none (nullable str)
  let cabinClass ← defaulted (o.get? "cabin_class") none (nullable str)
  let cabinClassMarketingName ←
    defaulted (o.get? "cabin_class_marketing_name") none (nullable str)
  let fareBasisCode ← defaulted (o.get? "fare_basis_code") none (nullable str)
  some { passengerId, cabinClass, cabinClassMarketingName, fareBasisCode }

structure DuffelSegment where
  id : String
  origin : DuffelPlace
  destination : DuffelPlace
  departingAt : DateTime
  arrivingAt : DateTime
  marketingCarrier : DuffelCarrier
  operatingCarrier : Option DuffelCarrier
  marketingCarrierFlightNumber : String
  aircraft : Option DuffelAircraft
  duration : Option String
  passengers : List DuffelSegmentPassenger

structure DuffelSlice where
  id : String
  origin : DuffelPlace
  destination : DuffelPlace
  duration : Option String
  segments : List DuffelSegment

structure DuffelOfferPassenger where
  id : String
  type : Option String

def DuffelOfferPassenger.decode : Decoder DuffelOfferPassenger := model fun o => do
  let id ← required (o.get? "id") str
  let type ← defaulted (o.get? "type") none (nullable str)
  some { id, type }

structure DuffelOffer where
  id : String
  owner : DuffelCarrier
  totalAmount : Decimal
  totalCurrency : String
  baseAmount : Option Decimal
  taxAmount : Option Decimal
  slices : List DuffelSlice
  passengers : List DuffelOfferPassenger
  expiresAt : Option DateTime

/-- `DuffelOfferRequestData`. -/
structure DuffelOfferRequestData where
  id : String
  offers : List DuffelOffer

/-- `DuffelOrderData`. -/
structure DuffelOrderData where
  id : String
  bookingReference : Option String
  totalAmount : Decimal
  totalCurrency : String
  slices : List DuffelSlice

variable (P : Pydantic)

def DuffelSegment.decode : Decoder DuffelSegment := model fun o => do
  let id ← required (o.get? "id") str
  let origin ← required (o.get? "origin") DuffelPlace.decode
  let destination ← required (o.get? "destination") DuffelPlace.decode
  let departingAt ← required (o.get? "departing_at") P.readDateTime
  let arrivingAt ← required (o.get? "arriving_at") P.readDateTime
  let marketingCarrier ← required (o.get? "marketing_carrier") DuffelCarrier.decode
  let operatingCarrier ←
    defaulted (o.get? "operating_carrier") none (nullable DuffelCarrier.decode)
  let marketingCarrierFlightNumber ← required (o.get? "marketing_carrier_flight_number") str
  let aircraft ← defaulted (o.get? "aircraft") none (nullable DuffelAircraft.decode)
  let duration ← defaulted (o.get? "duration") none (nullable str)
  let passengers ← defaulted (o.get? "passengers") [] (list DuffelSegmentPassenger.decode)
  some
    { id, origin, destination, departingAt, arrivingAt, marketingCarrier, operatingCarrier,
      marketingCarrierFlightNumber, aircraft, duration, passengers }

def DuffelSlice.decode : Decoder DuffelSlice := model fun o => do
  let id ← required (o.get? "id") str
  let origin ← required (o.get? "origin") DuffelPlace.decode
  let destination ← required (o.get? "destination") DuffelPlace.decode
  let duration ← defaulted (o.get? "duration") none (nullable str)
  let segments ← required (o.get? "segments") (list (DuffelSegment.decode P))
  some { id, origin, destination, duration, segments }

def DuffelOffer.decode : Decoder DuffelOffer := model fun o => do
  let id ← required (o.get? "id") str
  let owner ← required (o.get? "owner") DuffelCarrier.decode
  let totalAmount ← required (o.get? "total_amount") P.readDecimal
  let totalCurrency ← required (o.get? "total_currency") str
  let baseAmount ← defaulted (o.get? "base_amount") none (nullable P.readDecimal)
  let taxAmount ← defaulted (o.get? "tax_amount") none (nullable P.readDecimal)
  let slices ← required (o.get? "slices") (list (DuffelSlice.decode P))
  let passengers ← defaulted (o.get? "passengers") [] (list DuffelOfferPassenger.decode)
  let expiresAt ← defaulted (o.get? "expires_at") none (nullable P.readDateTime)
  some
    { id, owner, totalAmount, totalCurrency, baseAmount, taxAmount, slices, passengers,
      expiresAt }

def DuffelOfferRequestData.decode : Decoder DuffelOfferRequestData := model fun o => do
  let id ← required (o.get? "id") str
  let offers ← defaulted (o.get? "offers") [] (list (DuffelOffer.decode P))
  some { id, offers }

def DuffelOrderData.decode : Decoder DuffelOrderData := model fun o => do
  let id ← required (o.get? "id") str
  let bookingReference ← defaulted (o.get? "booking_reference") none (nullable str)
  let totalAmount ← required (o.get? "total_amount") P.readDecimal
  let totalCurrency ← required (o.get? "total_currency") str
  let slices ← required (o.get? "slices") (list (DuffelSlice.decode P))
  some { id, bookingReference, totalAmount, totalCurrency, slices }

/-- `DuffelOfferRequestResponse.model_validate(raw).data`. -/
def DuffelOfferRequestResponse.data : Decoder DuffelOfferRequestData := model fun o =>
  required (o.get? "data") (DuffelOfferRequestData.decode P)

/-- `DuffelOfferResponse.model_validate(raw).data`. -/
def DuffelOfferResponse.data : Decoder DuffelOffer := model fun o =>
  required (o.get? "data") (DuffelOffer.decode P)

/-- `DuffelOrderResponse.model_validate(raw).data`. -/
def DuffelOrderResponse.data : Decoder DuffelOrderData := model fun o =>
  required (o.get? "data") (DuffelOrderData.decode P)

end FlyDesk
