/-
FlyDesk/Domain/Models.lean

The normalised domain models: the shapes every part of the system speaks.
Dates and times are kept as the numbers they stand for; the text they have in
JSON is taken to be lossless.
-/
import FlyDesk.Lib.Json

namespace FlyDesk

open Lib

/-! ### Enumerations -/

/-- `Provider`. -/
inductive Provider
  | duffel
  | amadeus
deriving DecidableEq, Repr

/-- The string a `Provider` serialises as. -/
def Provider.value : Provider → String
  | .duffel => "duffel"
  | .amadeus => "amadeus"

/-- `CabinClass`. -/
inductive CabinClass
  | economy
  | premiumEconomy
  | business
  | first
deriving DecidableEq, Repr

/-- `PassengerType`. -/
inductive PassengerType
  | adult
  | child
  | infantWithoutSeat
deriving DecidableEq, Repr

/-- `PlaceType`. -/
inductive PlaceType
  | airport
  | city
deriving DecidableEq, Repr

/-- `OrderStatus`: the lifecycle of a booking. -/
inductive OrderStatus
  | pending
  | confirmed
  | ticketed
  | failed
  | cancelled
deriving DecidableEq, Repr

/-! ### Times -/

/-- A `datetime`: microseconds on the clock it is written for, and that
clock's offset from UTC unless it is naive. -/
structure DateTime where
  micros : ℤ
  utcOffset : Option ℤ
deriving DecidableEq, Repr

/-- A `date`, as its ordinal. -/
structure Date where
  ordinal : ℕ
deriving DecidableEq, Repr

/-- A `timedelta`. -/
structure TimeDelta where
  micros : ℤ
deriving DecidableEq, Repr

/-! ### Building blocks -/

/-- `Money`: an exact amount and an ISO-4217 currency. -/
structure Money where
  amount : Decimal
  currency : String
deriving DecidableEq, Repr

/-- The amount as it comes back from where it is stored: rounded to two
places. -/
def Money.stored (m : Money) : Money :=
  { m with amount := m.amount.quantize 2 }

structure Place where
  iataCode : String
  name : Option String
  cityName : Option String
  type : PlaceType
deriving DecidableEq, Repr

structure Carrier where
  iataCode : String
  name : Option String
deriving DecidableEq, Repr

/-- `Segment`: a leg flown without changing aircraft. -/
structure Segment where
  id : String
  origin : Place
  destination : Place
  departingAt : DateTime
  arrivingAt : DateTime
  marketingCarrier : Carrier
  operatingCarrier : Option Carrier
  flightNumber : String
  aircraft : Option String
  cabinClass : Option CabinClass
  duration : Option TimeDelta
deriving DecidableEq, Repr

/-- `Slice`: one directional journey. -/
structure Slice where
  id : String
  origin : Place
  destination : Place
  duration : Option TimeDelta
  segments : List Segment
deriving DecidableEq, Repr

/-- `Offer`: a bookable price for an itinerary. -/
structure Offer where
  id : String
  provider : Provider
  owner : Carrier
  total : Money
  slices : List Slice
  passengerTypes : List PassengerType
  cabinClass : Option CabinClass
  expiresAt : Option DateTime
deriving DecidableEq, Repr

/-! ### Search input -/

/-- `PassengerSpec`: who is travelling. -/
structure PassengerSpec where
  type : PassengerType
  age : Option ℤ
deriving DecidableEq, Repr

/-- `SearchCriteria`. -/
structure SearchCriteria where
  origin : String
  destination : String
  departureDate : Date
  returnDate : Option Date
  cabinClass : CabinClass
  passengers : List PassengerSpec
  maxConnections : ℤ
deriving DecidableEq, Repr

/-! ### Bookings -/

/-- `BookingPassenger`: the details an order needs. -/
structure BookingPassenger where
  type : PassengerType
  title : Option String
  gender : Option String
  givenName : String
  familyName : String
  bornOn : Date
  email : String
  phoneNumber : String
  providerPassengerId : Option String
deriving DecidableEq, Repr

/-- `OrderEvent`: an entry of an order's history. -/
structure OrderEvent where
  type : String
  occurredAt : DateTime
  detail : Option String
deriving DecidableEq, Repr

/-- `OutboxEvent`: an event staged for publishing. -/
structure OutboxEvent where
  id : String
  type : String
  payload : Dict
  createdAt : DateTime
  publishedAt : Option DateTime

/-- `Order`: a persisted booking. -/
structure Order where
  id : String
  provider : Provider
  providerOrderId : String
  bookingReference : Option String
  status : OrderStatus
  total : Money
  slices : List Slice
  passengers : List BookingPassenger
  idempotencyKey : Option String
  createdAt : DateTime
  events : List OrderEvent
  outbox : List OutboxEvent

end FlyDesk
