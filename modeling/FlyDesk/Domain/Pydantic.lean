/-
FlyDesk/Domain/Pydantic.lean

What the models take from Python and pydantic: the classes of characters
behind `strip`, `upper`, `isalpha` and `isalnum`, and how the scalars are read
from JSON.  They are a parameter of the models.

The validators of the models themselves are here too: a code is stripped,
turned to upper case, and has a fixed number of letters.  Every failure of a
model is one exception, `ValidationError`, so a validator is partial.
-/
import FlyDesk.Lib.Schema
import FlyDesk.Common.Exceptions
import FlyDesk.Domain.Models
import Mathlib.Data.List.DropRight

namespace FlyDesk

open Lib

/-- The classes of characters, and the readers of scalars. -/
structure Pydantic where
  isSpace : Char → Bool
  isAlpha : Char → Bool
  isAlnum : Char → Bool
  upper : Char → List Char
  readInt : Decoder ℤ
  readDecimal : Decoder Decimal
  readDateTime : Decoder DateTime
  readDate : Decoder Date
  readDuration : Decoder TimeDelta

/-- A model that rejects its data raises `ValidationError`. -/
def validated {α : Type} : Option α → Except Exn α
  | some a => .ok a
  | none => .error .validationError

namespace Pydantic

variable (P : Pydantic)

/-- `value.strip().upper()`. -/
def stripUpper (value : String) : List Char :=
  ((value.toList.dropWhile P.isSpace).rdropWhile P.isSpace).flatMap P.upper

/-- A code of `n` characters of one class. -/
def code (n : ℕ) (ok : Char → Bool) (value : String) : Option String :=
  let code := P.stripUpper value
  if code.length = n ∧ code.all ok then some (String.ofList code) else none

/-- `_airport_code`. -/
def airportCode : String → Option String := P.code 3 P.isAlpha

/-- `_carrier_code`. -/
def carrierCode : String → Option String := P.code 2 P.isAlnum

/-- `Money._currency_iso4217`. -/
def currencyIso4217 : String → Option String := P.code 3 P.isAlpha

end Pydantic

/-! ### Enumerations -/

/-- `CabinClass(value)`. -/
def CabinClass.ofValue : String → Option CabinClass
  | "economy" => some .economy
  | "premium_economy" => some .premiumEconomy
  | "business" => some .business
  | "first" => some .first
  | _ => none

/-- `PassengerType(value)`. -/
def PassengerType.ofValue : String → Option PassengerType
  | "adult" => some .adult
  | "child" => some .child
  | "infant_without_seat" => some .infantWithoutSeat
  | _ => none

/-- `PlaceType(value)`. -/
def PlaceType.ofValue : String → Option PlaceType
  | "airport" => some .airport
  | "city" => some .city
  | _ => none

/-! ### Building the models -/

variable (P : Pydantic)

/-- `Money(amount=…, currency=…)`. -/
def Money.create (amount : Decimal) (currency : String) : Option Money := do
  let currency ← P.currencyIso4217 currency
  some { amount, currency }

/-- `Place(iata_code=…, name=…, city_name=…, type=…)`. -/
def Place.create (iataCode name cityName : Json) (type : PlaceType) : Option Place := do
  let iataCode ← (Decoder.str iataCode).bind P.airportCode
  let name ← Decoder.nullable Decoder.str name
  let cityName ← Decoder.nullable Decoder.str cityName
  some { iataCode, name, cityName, type }

/-- `Carrier(iata_code=…, name=…)`. -/
def Carrier.create (iataCode : String) (name : Option String) : Option Carrier := do
  let iataCode ← P.carrierCode iataCode
  some { iataCode, name }

/-- `Segment(id=…, …, duration=…)`. -/
def Segment.create (id : String) (origin destination : Place) (departingAt arrivingAt : DateTime)
    (marketingCarrier : Carrier) (operatingCarrier : Option Carrier) (flightNumber : String)
    (aircraft : Option String) (cabinClass : Option CabinClass) (duration : Json) :
    Option Segment := do
  let duration ← Decoder.nullable P.readDuration duration
  some
    { id, origin, destination, departingAt, arrivingAt, marketingCarrier, operatingCarrier,
      flightNumber, aircraft, cabinClass, duration }

/-- `Slice(id=…, …, segments=…)`: there is at least one segment. -/
def Slice.create (id : String) (origin destination : Place) (duration : Json)
    (segments : List Segment) : Option Slice := do
  let duration ← Decoder.nullable P.readDuration duration
  if segments = [] then none else some { id, origin, destination, duration, segments }

/-- `Offer(id=…, …, expires_at=…)`: there is at least one slice. -/
def Offer.create (id : String) (provider : Provider) (owner : Carrier) (total : Money)
    (slices : List Slice) (passengerTypes : List PassengerType)
    (cabinClass : Option CabinClass) (expiresAt : Option DateTime) : Option Offer :=
  if slices = [] then none
  else some
    { id, provider, owner, total, slices, passengerTypes, cabinClass, expiresAt }

/-! ### What the models accept -/

/-- The code of a carrier. -/
def CarrierFits (code : String) : Prop :=
  ∃ c, P.carrierCode code = some c

/-- A duration is left out or can be read. -/
def DurationFits (duration : Option String) : Prop :=
  ∀ s, duration = some s → ∃ d, P.readDuration (.str s) = some d

def CurrencyFits (currency : String) : Prop :=
  ∃ c, P.currencyIso4217 currency = some c

variable {P}

theorem validated_eq_ok {α : Type} {o : Option α} {a : α} :
    validated o = .ok a ↔ o = some a := by
  cases o <;> simp [validated]

theorem duration_eq_some {duration : Option String} :
    (∃ d, Decoder.nullable P.readDuration (.ofOption duration) = some d) ↔
      DurationFits P duration := by
  unfold DurationFits
  rcases duration with - | s
  · simp [Json.ofOption]
  · rcases e : P.readDuration (.str s) with - | d <;> simp [Json.ofOption, Decoder.nullable, e]

theorem Carrier.create_eq_some {code : String} {name : Option String} :
    (∃ c, Carrier.create P code name = some c) ↔ CarrierFits P code := by
  unfold CarrierFits Carrier.create
  rcases P.carrierCode code with - | c <;> simp

theorem Money.create_eq_some (amount : Decimal) {currency : String} :
    (∃ m, Money.create P amount currency = some m) ↔ CurrencyFits P currency := by
  unfold CurrencyFits Money.create
  rcases P.currencyIso4217 currency with - | c <;> simp

theorem Segment.create_eq_some {id : String} {origin destination : Place}
    {departingAt arrivingAt : DateTime} {marketingCarrier : Carrier}
    {operatingCarrier : Option Carrier} {flightNumber : String} {aircraft : Option String}
    {cabinClass : Option CabinClass} {duration : Option String} :
    (∃ s, Segment.create P id origin destination departingAt arrivingAt marketingCarrier
      operatingCarrier flightNumber aircraft cabinClass (.ofOption duration) = some s) ↔
      DurationFits P duration := by
  rw [← duration_eq_some]
  unfold Segment.create
  rcases Decoder.nullable P.readDuration (.ofOption duration) with - | d <;> simp

theorem Slice.create_eq_some (id : String) (origin destination : Place)
    {duration : Option String} {segments : List Segment} :
    (∃ s, Slice.create P id origin destination (.ofOption duration) segments = some s) ↔
      segments ≠ [] ∧ DurationFits P duration := by
  rw [← duration_eq_some]
  unfold Slice.create
  rcases Decoder.nullable P.readDuration (.ofOption duration) with - | d
  · simp
  · by_cases h : segments = [] <;> simp [h]

theorem Offer.create_eq_some {id : String} {provider : Provider} {owner : Carrier}
    {total : Money} {slices : List Slice} {passengerTypes : List PassengerType}
    {cabinClass : Option CabinClass} {expiresAt : Option DateTime} :
    (∃ offer, Offer.create id provider owner total slices passengerTypes cabinClass expiresAt =
      some offer) ↔ slices ≠ [] := by
  unfold Offer.create
  by_cases h : slices = [] <;> simp [h]

/-- Python and pydantic for text in ASCII and numbers written as strings. -/
def Sample.pydantic : Pydantic where
  isSpace := Char.isWhitespace
  isAlpha := Char.isAlpha
  isAlnum := Char.isAlphanum
  upper c := [c.toUpper]
  readInt
    | .num n => if n.exponent = 0 then some (if n.sign then -n.coefficient else n.coefficient)
      else none
    | _ => none
  readDecimal
    | .num n => some n
    | .str s => Decimal.parse s.toList
    | _ => none
  readDateTime _ := none
  readDate _ := none
  readDuration _ := none

end FlyDesk
