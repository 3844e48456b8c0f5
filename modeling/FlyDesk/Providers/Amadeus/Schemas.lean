/-
FlyDesk/Providers/Amadeus/Schemas.lean

The raw payload of Amadeus's flight offers search.  Fields stand under their
camelCase alias or, with `populate_by_name`, under their own name.
-/
import FlyDesk.Domain.Pydantic

namespace FlyDesk

open Lib Decoder

structure AmadeusEndpoint where
  iataCode : String
  terminal : Option String
  at_ : DateTime

structure AmadeusAircraft where
  code : Option String

def AmadeusAircraft.decode : Decoder AmadeusAircraft := model fun o => do
  let code ← defaulted (o.get? "code") none (nullable str)
  some { code }

structure AmadeusOperating where
  carrierCode : Option String

def AmadeusOperating.decode : Decoder AmadeusOperating := model fun o => do
  let carrierCode ←
    defaulted (o.aliased "carrierCode" "carrier_code") none (nullable str)
  some { carrierCode }

structure AmadeusSegment where
  id : String
  departure : AmadeusEndpoint
  arrival : AmadeusEndpoint
  carrierCode : String
  number : String
  aircraft : Option AmadeusAircraft
  operating : Option AmadeusOperating
  duration : Option String
  numberOfStops : ℤ

structure AmadeusItinerary where
  duration : Option String
  segments : List AmadeusSegment

structure AmadeusFee where
  amount : Decimal
  type : String

structure AmadeusPrice where
  currency : String
  total : Decimal
  base : Option Decimal
  grandTotal : Option Decimal
  fees : List AmadeusFee

structure AmadeusFareDetail where
  segmentId : String
  cabin : Option String
  fareBasis : Option String
  bookingClass : Option String

def AmadeusFareDetail.decode : Decoder AmadeusFareDetail := model fun o => do
  let segmentId ← required (o.aliased "segmentId" "segment_id") str
  let cabin ← defaulted (o.get? "cabin") none (nullable str)
  let fareBasis ← defaulted (o.aliased "fareBasis" "fare_basis") none (nullable str)
  let bookingClass ← defaulted (o.aliased "class" "booking_class") none (nullable str)
  some { segmentId, cabin, fareBasis, bookingClass }

structure AmadeusTravelerPricing where
  travelerId : String
  travelerType : String
  fareDetailsBySegment : List AmadeusFareDetail

def AmadeusTravelerPricing.decode : Decoder AmadeusTravelerPricing := model fun o => do
  let travelerId ← required (o.aliased "travelerId" "traveler_id") str
  let travelerType ← required (o.aliased "travelerType" "traveler_type") str
  let fareDetailsBySegment ←
    defaulted (o.aliased "fareDetailsBySegment" "fare_details_by_segment") []
      (list AmadeusFareDetail.decode)
  some { travelerId, travelerType, fareDetailsBySegment }

structure AmadeusFlightOffer where
  id : String
  source : Option String
  itineraries : List AmadeusItinerary
  price : AmadeusPrice
  validatingAirlineCodes : List String
  travelerPricings : List AmadeusTravelerPricing

/-- `AmadeusDictionaries`.  The values of `locations` can be anything. -/
structure AmadeusDictionaries where
  carriers : List (String × String)
  aircraft : List (String × String)
  locations : Dict

def AmadeusDictionaries.decode : Decoder AmadeusDictionaries := model fun o => do
  let carriers ← defaulted (o.get? "carriers") [] (dict str)
  let aircraft ← defaulted (o.get? "aircraft") [] (dict str)
  let locations ← defaulted (o.get? "locations") [] (dict some)
  some { carriers, aircraft, locations }

structure AmadeusFlightOffersResponse where
  data : List AmadeusFlightOffer
  dictionaries : Option AmadeusDictionaries

variable (P : Pydantic)

def AmadeusEndpoint.decode : Decoder AmadeusEndpoint := model fun o => do
  let iataCode ← required (o.aliased "iataCode" "iata_code") str
  let terminal ← defaulted (o.get? "terminal") none (nullable str)
  let at_ ← required (o.get? "at") P.readDateTime
  some { iataCode, terminal, at_ }

def AmadeusSegment.decode : Decoder AmadeusSegment := model fun o => do
  let id ← required (o.get? "id") str
  let departure ← required (o.get? "departure") (AmadeusEndpoint.decode P)
  let arrival ← required (o.get? "arrival") (AmadeusEndpoint.decode P)
  let carrierCode ← required (o.aliased "carrierCode" "carrier_code") str
  let number ← required (o.get? "number") str
  let aircraft ← defaulted (o.get? "aircraft") none (nullable AmadeusAircraft.decode)
  let operating ← defaulted (o.get? "operating") none (nullable AmadeusOperating.decode)
  let duration ← defaulted (o.get? "duration") none (nullable str)
  let numberOfStops ← defaulted (o.aliased "numberOfStops" "number_of_stops") 0 P.readInt
  some
    { id, departure, arrival, carrierCode, number, aircraft, operating, duration,
      numberOfStops }

def AmadeusItinerary.decode : Decoder AmadeusItinerary := model fun o => do
  let duration ← defaulted (o.get? "duration") none (nullable str)
  let segments ← required (o.get? "segments") (list (AmadeusSegment.decode P))
  some { duration, segments }

def AmadeusFee.decode : Decoder AmadeusFee := model fun o => do
  let amount ← required (o.get? "amount") P.readDecimal
  let type ← required (o.get? "type") str
  some { amount, type }

def AmadeusPrice.decode : Decoder AmadeusPrice := model fun o => do
  let currency ← required (o.get? "currency") str
  let total ← required (o.get? "total") P.readDecimal
  let base ← defaulted (o.get? "base") none (nullable P.readDecimal)
  let grandTotal ←
    defaulted (o.aliased "grandTotal" "grand_total") none (nullable P.readDecimal)
  let fees ← defaulted (o.get? "fees") [] (list (AmadeusFee.decode P))
  some { currency, total, base, grandTotal, fees }

def AmadeusFlightOffer.decode : Decoder AmadeusFlightOffer := model fun o => do
  let id ← required (o.get? "id") str
  let source ← defaulted (o.get? "source") none (nullable str)
  let itineraries ← required (o.get? "itineraries") (list (AmadeusItinerary.decode P))
  let price ← required (o.get? "price") (AmadeusPrice.decode P)
  let validatingAirlineCodes ←
    defaulted (o.aliased "validatingAirlineCodes" "validating_airline_codes") [] (list str)
  let travelerPricings ←
    defaulted (o.aliased "travelerPricings" "traveler_pricings") []
      (list AmadeusTravelerPricing.decode)
  some { id, source, itineraries, price, validatingAirlineCodes, travelerPricings }

def AmadeusFlightOffersResponse.decode : Decoder AmadeusFlightOffersResponse :=
  model fun o => do
    let data ← required (o.get? "data") (list (AmadeusFlightOffer.decode P))
    let dictionaries ←
      defaulted (o.get? "dictionaries") none (nullable AmadeusDictionaries.decode)
    some { data, dictionaries }

end FlyDesk
