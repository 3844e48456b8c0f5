/-
FlyDesk/Providers/Amadeus/Mapper.lean

From Amadeus's raw payload to the domain models.  Names come from the
`dictionaries` block, cabins from the fare details of the first traveller.

The expressions that index or look into something are written out with what
they raise when it is not there: the first and the last segment of an
itinerary, the owner of an offer without validating codes, the entry of a
location.
-/
import FlyDesk.Lib.Raises
import FlyDesk.Providers.Amadeus.Schemas

namespace FlyDesk

open Lib

namespace Amadeus

/-- `_TRAVELER_TYPE.get(value, PassengerType.ADULT)`. -/
def travelerType : String → PassengerType
  | "ADULT" => .adult
  | "CHILD" => .child
  | "HELD_INFANT" => .infantWithoutSeat
  | "SEATED_INFANT" => .child
  | _ => .adult

/-- `_cabin`.  Lowering the ASCII letters is enough: no other letter has a lower
case among those of the four names. -/
def cabin (value : Option String) : Option CabinClass :=
  value.bind fun v => CabinClass.ofValue (String.ofList (v.toList.map Char.toLower))

/-- `d[key] = value` on a dict. -/
def setItem {α : Type} (key : String) (value : α) : List (String × α) → List (String × α)
  | [] => [(key, value)]
  | (k, v) :: d => if k = key then (key, value) :: d else (k, v) :: setItem key value d

/-- `cabin_by_segment`. -/
def cabinBySegment (o : AmadeusFlightOffer) : List (String × Option String) :=
  match o.travelerPricings with
  | [] => []
  | first :: _ =>
    -- the other travelers are not looked at
    first.fareDetailsBySegment.foldl (fun d fd => setItem fd.segmentId fd.cabin d) []

/-- `dictionaries.locations[iata_code]`, if there is one. -/
def location (dictionaries : Option AmadeusDictionaries) (iataCode : String) : Option Json :=
  dictionaries.bind fun d => d.locations.get? iataCode

/-- `dictionaries.locations[iata_code].get("cityCode")`; only an object has a
`get`. -/
def cityName (dictionaries : Option AmadeusDictionaries) (iataCode : String) :
    Except Exn Json :=
  match location dictionaries iataCode with
  | none => .ok .null
  | some (.obj entry) => .ok ((Dict.get? entry "cityCode").getD .null)
  | some _ => .error .attributeError

variable (P : Pydantic) (dictionaries : Option AmadeusDictionaries)

/-- `_place`. -/
def place (iataCode : String) : Except Exn Place := do
  let cityName ← cityName dictionaries iataCode
  validated (Place.create P (.str iataCode) .null cityName .airport)

/-- `_carrier`. -/
def carrier (code : String) : Except Exn Carrier :=
  validated (Carrier.create P code (dictionaries.bind fun d => d.carriers.lookup code))

/-- The operating carrier, if the segment names one. -/
def operatingCarrier (operating : Option AmadeusOperating) : Except Exn (Option Carrier) :=
  match operating.bind AmadeusOperating.carrierCode with
  | none => .ok none
  | some code => if code = "" then .ok none else (carrier P dictionaries code).map some

/-- `aircraft_name or (seg.aircraft.code if seg.aircraft else None)`. -/
def aircraft (aircraft : Option AmadeusAircraft) : Option String :=
  match aircraft.bind AmadeusAircraft.code with
  | none => none
  | some code =>
    let name := if code = "" then none else dictionaries.bind fun d => d.aircraft.lookup code
    -- an empty name falls back on the code too
    match name with
    | none => some code
    | some name => if name = "" then some code else some name

/-- `_segment`. -/
def segment (cabinBySegment : List (String × Option String)) (seg : AmadeusSegment) :
    Except Exn Segment := do
  let origin ← place P dictionaries seg.departure.iataCode
  let destination ← place P dictionaries seg.arrival.iataCode
  let marketingCarrier ← carrier P dictionaries seg.carrierCode
  let operatingCarrier ← operatingCarrier P dictionaries seg.operating
  validated (Segment.create P seg.id origin destination seg.departure.at_ seg.arrival.at_
    marketingCarrier operatingCarrier (seg.carrierCode ++ seg.number)
    (aircraft dictionaries seg.aircraft) (cabin (cabinBySegment.lookup seg.id).join)
    (.ofOption seg.duration))

/-- One round of the loop over the itineraries: the slice `{id}-itin-{idx}`. -/
def slice (offerId : String) (cabinBySegment : List (String × Option String))
    (itin : AmadeusItinerary × ℕ) : Except Exn Slice := do
  let segments ← itin.1.segments.mapM (segment P dictionaries cabinBySegment)
  -- `segments[0]` and `segments[-1]`, before `Slice` can object
  match segments.head?, segments.getLast? with
  | some first, some last =>
    validated (Slice.create P (offerId ++ "-itin-" ++ toString itin.2) first.origin
      last.destination (.ofOption itin.1.duration) segments)
  | _, _ => .error .indexError

/-- `owner_code`. -/
def ownerCode (o : AmadeusFlightOffer) : Except Exn String :=
  match o.validatingAirlineCodes with
  | code :: _ => .ok code
  | [] =>
    -- `offer.itineraries[0].segments[0].carrier_code`
    match o.itineraries.head?.bind fun itin => itin.segments.head? with
    | some seg => .ok seg.carrierCode
    | none => .error .indexError

/-- `offer.price.grand_total or offer.price.total`. -/
def amount (price : AmadeusPrice) : Decimal :=
  match price.grandTotal with
  | none => price.total
  -- zero is false
  | some grandTotal => if grandTotal.coefficient = 0 then price.total else grandTotal

/-- `map_offer`. -/
def mapOffer (o : AmadeusFlightOffer) : Except Exn Offer := do
  let slices ← o.itineraries.zipIdx.mapM (slice P dictionaries o.id (cabinBySegment o))
  let ownerCode ← ownerCode o
  let firstCabin := ((cabinBySegment o).head?.map Prod.snd).join
  let owner ← carrier P dictionaries ownerCode
  let total ← validated (Money.create P (amount o.price) o.price.currency)
  validated (Offer.create o.id .amadeus owner total slices
    (o.travelerPricings.map fun tp => travelerType tp.travelerType) (cabin firstCabin) none)

/-- `map_offers`. -/
def mapOffers (response : AmadeusFlightOffersResponse) : Except Exn (List Offer) :=
  response.data.mapM (mapOffer P response.dictionaries)

/-- `AmadeusProvider.map_payload`. -/
def mapPayload (raw : Json) : Except Exn (List Offer) := do
  let response ← validated (AmadeusFlightOffersResponse.decode P raw)
  mapOffers P response

end Amadeus

end FlyDesk
