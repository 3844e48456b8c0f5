/-
FlyDesk/Domain/Serialization.lean

The models in JSON: what `model_dump(mode="json")` writes for an offer and all
that is in it, and how `model_validate` reads it.  The two are not inverse to
each other by construction.  An amount is written with two places; codes and
currencies are read through validators that strip them and turn them to upper
case; the numbers of stops are written and, where a model ignores what it does
not know, left out on the way back.

How dates, times and durations are written is a parameter, like the readers.
`Pydantic.Lawful` says what is taken from Python and pydantic: the text of a
time is read back as that time, and upper case, letters and spaces behave.

A valid model is one that has been through its validators.  The round trip of
a valid model gives it back, the total of an offer rounded to two places
(`Offer.modelValidate_json`).  Search criteria are only written, and their text
determines them.
-/
import FlyDesk.Domain.Pydantic
import FlyDesk.Lib.DecimalValue
import FlyDesk.Lib.JsonText

namespace FlyDesk

open Lib

/-- How dates, times and durations are written. -/
structure IsoText where
  dateTime : DateTime → String
  date : Date → String
  duration : TimeDelta → String

/-- What is taken from Python and pydantic about characters and scalars. -/
structure Pydantic.Lawful (P : Pydantic) (T : IsoText) : Prop where
  upper_upper : ∀ c, (P.upper c).flatMap P.upper = P.upper c
  alpha_not_space : ∀ c, P.isAlpha c = true → P.isSpace c = false
  alnum_not_space : ∀ c, P.isAlnum c = true → P.isSpace c = false
  decimal : ∀ d : Decimal, d.exponent = -2 →
    P.readDecimal (.str (String.ofList (d.fixedText 2))) = some d
  dateTime : ∀ t, P.readDateTime (.str (T.dateTime t)) = some t
  date : ∀ d, P.readDate (.str (T.date d)) = some d
  duration : ∀ d, P.readDuration (.str (T.duration d)) = some d

/-! ### Enumerations -/

/-- `Provider(value)`. -/
def Provider.ofValue : String → Option Provider
  | "duffel" => some .duffel
  | "amadeus" => some .amadeus
  | _ => none

/-- The string a `CabinClass` serialises as. -/
def CabinClass.value : CabinClass → String
  | .economy => "economy"
  | .premiumEconomy => "premium_economy"
  | .business => "business"
  | .first => "first"

/-- The string a `PassengerType` serialises as. -/
def PassengerType.value : PassengerType → String
  | .adult => "adult"
  | .child => "child"
  | .infantWithoutSeat => "infant_without_seat"

/-- The string a `PlaceType` serialises as. -/
def PlaceType.value : PlaceType → String
  | .airport => "airport"
  | .city => "city"

@[simp] theorem Provider.ofValue_value (p : Provider) : ofValue p.value = some p := by
  cases p <;> rfl

@[simp] theorem CabinClass.ofValue_value (c : CabinClass) : ofValue c.value = some c := by
  cases c <;> rfl

@[simp] theorem PassengerType.ofValue_value (t : PassengerType) :
    ofValue t.value = some t := by
  cases t <;> rfl

@[simp] theorem PlaceType.ofValue_value (t : PlaceType) : ofValue t.value = some t := by
  cases t <;> rfl

theorem CabinClass.ofValue_eq_some {s : String} {c : CabinClass} :
    ofValue s = some c ↔ s = c.value := by
  constructor
  · intro h
    unfold ofValue at h
    split at h <;> cases h <;> rfl
  · rintro rfl
    exact ofValue_value c

theorem PassengerType.ofValue_eq_some {s : String} {t : PassengerType} :
    ofValue s = some t ↔ s = t.value := by
  constructor
  · intro h
    unfold ofValue at h
    split at h <;> cases h <;> rfl
  · rintro rfl
    exact ofValue_value t

theorem PlaceType.ofValue_eq_some {s : String} {t : PlaceType} :
    ofValue s = some t ↔ s = t.value := by
  constructor
  · intro h
    unfold ofValue at h
    split at h <;> cases h <;> rfl
  · rintro rfl
    exact ofValue_value t

theorem PassengerType.value_injective : Function.Injective PassengerType.value := by
  intro a b hab
  exact Option.some.inj (by rw [← ofValue_value a, hab, ofValue_value])

theorem CabinClass.value_injective : Function.Injective CabinClass.value := by
  intro a b hab
  exact Option.some.inj (by rw [← ofValue_value a, hab, ofValue_value])

/-! ### Reading a member of an enumeration -/

section Members

variable {α : Type} {value : α → String} {ofValue : String → Option α} {raw : Option String}

/-- The member whose value the text is, and none where it is no value. -/
def NamedBy (value : α → String) (raw : Option String) (member : Option α) : Prop :=
  ∀ a, member = some a ↔ raw = some (value a)

/-- The member whose value the text is, and the default where it is no value. -/
def NamedOr (value : α → String) (default : α) (raw : Option String) (member : α) : Prop :=
  raw = some (value member) ∨ member = default ∧ ∀ a, raw ≠ some (value a)

theorem namedBy_iff (h : ∀ {s a}, ofValue s = some a ↔ s = value a) {member : Option α} :
    NamedBy value raw member ↔ member = raw.bind ofValue := by
  have hraw : ∀ a, raw = some (value a) ↔ raw.bind ofValue = some a := by
    intro a
    cases raw <;> simp [h]
  simp only [NamedBy, hraw]
  exact ⟨fun hall => Option.ext fun a => hall a, fun he a => by rw [he]⟩

theorem namedOr_iff (h : ∀ {s a}, ofValue s = some a ↔ s = value a) {default member : α} :
    NamedOr value default raw member ↔ member = (raw.bind ofValue).getD default := by
  have hraw : ∀ a, raw = some (value a) ↔ raw.bind ofValue = some a := by
    intro a
    cases raw <;> simp [h]
  simp only [NamedOr, Ne, hraw]
  rcases raw.bind ofValue with - | b
  · simp
  · simp [eq_comm]

end Members

/-! ### Writing -/

variable (T : IsoText)

def Money.json (m : Money) : Json := .obj
  [("amount", .str (String.ofList (m.amount.format 2))), ("currency", .str m.currency)]

def Place.json (p : Place) : Json := .obj
  [("iata_code", .str p.iataCode), ("name", .nullable .str p.name),
    ("city_name", .nullable .str p.cityName), ("type", .str p.type.value)]

def Carrier.json (c : Carrier) : Json := .obj
  [("iata_code", .str c.iataCode), ("name", .nullable .str c.name)]

def Segment.json (s : Segment) : Json := .obj
  [("id", .str s.id), ("origin", s.origin.json), ("destination", s.destination.json),
    ("departing_at", .str (T.dateTime s.departingAt)),
    ("arriving_at", .str (T.dateTime s.arrivingAt)),
    ("marketing_carrier", s.marketingCarrier.json),
    ("operating_carrier", .nullable Carrier.json s.operatingCarrier),
    ("flight_number", .str s.flightNumber), ("aircraft", .nullable .str s.aircraft),
    ("cabin_class", .nullable (fun c => .str c.value) s.cabinClass),
    ("duration", .nullable (fun d => .str (T.duration d)) s.duration)]

/-- `Slice.stops`. -/
def Slice.stops (s : Slice) : ℤ := s.segments.length - 1

def Slice.json (s : Slice) : Json := .obj
  [("id", .str s.id), ("origin", s.origin.json), ("destination", s.destination.json),
    ("duration", .nullable (fun d => .str (T.duration d)) s.duration),
    ("segments", .list (Segment.json T) s.segments), ("stops", .int s.stops)]

/-- `Offer.total_stops`. -/
def Offer.totalStops (o : Offer) : ℤ := (o.slices.map Slice.stops).sum

def Offer.json (o : Offer) : Json := .obj
  [("id", .str o.id), ("provider", .str o.provider.value), ("owner", o.owner.json),
    ("total", o.total.json), ("slices", .list (Slice.json T) o.slices),
    ("passenger_types", .list (fun t => .str t.value) o.passengerTypes),
    ("cabin_class", .nullable (fun c => .str c.value) o.cabinClass),
    ("expires_at", .nullable (fun t => .str (T.dateTime t)) o.expiresAt),
    ("total_stops", .int o.totalStops)]

def PassengerSpec.json (p : PassengerSpec) : Json := .obj
  [("type", .str p.type.value), ("age", .nullable .int p.age)]

def SearchCriteria.json (c : SearchCriteria) : Json := .obj
  [("origin", .str c.origin), ("destination", .str c.destination),
    ("departure_date", .str (T.date c.departureDate)),
    ("return_date", .nullable (fun d => .str (T.date d)) c.returnDate),
    ("cabin_class", .str c.cabinClass.value), ("passengers", .list PassengerSpec.json c.passengers),
    ("max_connections", .int c.maxConnections)]

/-! ### Text -/

/-- `json.dumps`. -/
def jsonDumps (v : Json) : List Char := v.write { gap := 1, ascii := true }

/-- `json.loads`. -/
def jsonLoads (text : List Char) : Option Json := Json.read text

/-- `model_dump_json`. -/
def SearchCriteria.modelDumpJson (c : SearchCriteria) : List Char :=
  (c.json T).write { gap := 0, ascii := false }

section Plain

variable {T}

theorem Place.plain_json (p : Place) : p.json.Plain := by
  simp [Place.json, Json.plain_obj, Json.plain_nullable]

theorem Carrier.plain_json (c : Carrier) : c.json.Plain := by
  simp [Carrier.json, Json.plain_obj, Json.plain_nullable]

theorem Segment.plain_json (s : Segment) : (s.json T).Plain := by
  simp [Segment.json, Json.plain_obj, Json.plain_nullable, Place.plain_json, Carrier.plain_json]

theorem Slice.plain_json (s : Slice) : (s.json T).Plain := by
  simp [Slice.json, Json.plain_obj, Json.plain_nullable, Json.plain_list, Place.plain_json,
    Segment.plain_json]

theorem Offer.plain_json (o : Offer) : (o.json T).Plain := by
  simp [Offer.json, Money.json, Json.plain_obj, Json.plain_nullable, Json.plain_list,
    Carrier.plain_json, Slice.plain_json]

theorem PassengerSpec.plain_json (p : PassengerSpec) : p.json.Plain := by
  simp [PassengerSpec.json, Json.plain_obj, Json.plain_nullable]

theorem SearchCriteria.plain_json (c : SearchCriteria) : (c.json T).Plain := by
  simp [SearchCriteria.json, Json.plain_obj, Json.plain_nullable, Json.plain_list,
    PassengerSpec.plain_json]

/-- What is written is loaded as it was. -/
theorem jsonLoads_jsonDumps {v : Json} (h : v.Plain) : jsonLoads (jsonDumps v) = some v :=
  Json.read_write h

/-- An offer that has been read back is rendered as it was. -/
theorem Offer.json_stored (o : Offer) :
    ({ o with total := o.total.stored } : Offer).json T = o.json T := by
  have htotal : o.total.stored.json = o.total.json := by
    rw [Money.json, Money.stored, Decimal.format_quantize]
    rfl
  simp only [Offer.json, Offer.totalStops, htotal]

theorem PassengerSpec.json_injective : Function.Injective PassengerSpec.json := by
  rintro ⟨type, age⟩ ⟨type', age'⟩ h
  simp only [PassengerSpec.json, Json.obj.injEq, List.cons.injEq, Prod.mk.injEq, Json.str.injEq,
    true_and, and_true] at h
  obtain ⟨htype, hage⟩ := h
  obtain rfl := PassengerType.value_injective htype
  obtain rfl := Json.nullable_injective Json.int_injective nofun hage
  rfl

end Plain

/-! ### Reading -/

variable (P : Pydantic)

def Money.modelValidate : Decoder Money := .model fun d =>
  if d.only ["amount", "currency"] then do
    let amount ← required (d.get? "amount") P.readDecimal
    let currency ← required (d.get? "currency") Decoder.str
    Money.create P amount currency
  else none

def Place.modelValidate : Decoder Place := .model fun d =>
  if d.only ["iata_code", "name", "city_name", "type"] then do
    let iataCode ← d.get? "iata_code"
    let type ← defaulted (d.get? "type") .airport (Decoder.enum PlaceType.ofValue)
    Place.create P iataCode (d.orNull "name") (d.orNull "city_name") type
  else none

def Carrier.modelValidate : Decoder Carrier := .model fun d =>
  if d.only ["iata_code", "name"] then do
    let iataCode ← required (d.get? "iata_code") Decoder.str
    let name ← defaulted (d.get? "name") none (Decoder.nullable Decoder.str)
    Carrier.create P iataCode name
  else none

def Segment.modelValidate : Decoder Segment := .model fun d =>
  if d.only ["id", "origin", "destination", "departing_at", "arriving_at", "marketing_carrier",
      "operating_carrier", "flight_number", "aircraft", "cabin_class", "duration"] then do
    let id ← required (d.get? "id") Decoder.str
    let origin ← required (d.get? "origin") (Place.modelValidate P)
    let destination ← required (d.get? "destination") (Place.modelValidate P)
    let departingAt ← required (d.get? "departing_at") P.readDateTime
    let arrivingAt ← required (d.get? "arriving_at") P.readDateTime
    let marketingCarrier ← required (d.get? "marketing_carrier") (Carrier.modelValidate P)
    let operatingCarrier ← defaulted (d.get? "operating_carrier") none
      (Decoder.nullable (Carrier.modelValidate P))
    let flightNumber ← required (d.get? "flight_number") Decoder.str
    let aircraft ← defaulted (d.get? "aircraft") none (Decoder.nullable Decoder.str)
    let cabinClass ← defaulted (d.get? "cabin_class") none
      (Decoder.nullable (Decoder.enum CabinClass.ofValue))
    Segment.create P id origin destination departingAt arrivingAt marketingCarrier
      operatingCarrier flightNumber aircraft cabinClass (d.orNull "duration")
  else none

def Slice.modelValidate : Decoder Slice := .model fun d => do
  let id ← required (d.get? "id") Decoder.str
  let origin ← required (d.get? "origin") (Place.modelValidate P)
  let destination ← required (d.get? "destination") (Place.modelValidate P)
  let segments ← required (d.get? "segments") (Decoder.list (Segment.modelValidate P))
  Slice.create P id origin destination (d.orNull "duration") segments

def Offer.modelValidate : Decoder Offer := .model fun d => do
  let id ← required (d.get? "id") Decoder.str
  let provider ← required (d.get? "provider") (Decoder.enum Provider.ofValue)
  let owner ← required (d.get? "owner") (Carrier.modelValidate P)
  let total ← required (d.get? "total") (Money.modelValidate P)
  let slices ← required (d.get? "slices") (Decoder.list (Slice.modelValidate P))
  let passengerTypes ← defaulted (d.get? "passenger_types") []
    (Decoder.list (Decoder.enum PassengerType.ofValue))
  let cabinClass ← defaulted (d.get? "cabin_class") none
    (Decoder.nullable (Decoder.enum CabinClass.ofValue))
  let expiresAt ← defaulted (d.get? "expires_at") none (Decoder.nullable P.readDateTime)
  Offer.create id provider owner total slices passengerTypes cabinClass expiresAt

/-! ### Valid models -/

/-- The currency has been through its validator. -/
def Money.Valid (m : Money) : Prop := ∃ raw, P.currencyIso4217 raw = some m.currency

/-- The code has been through its validator. -/
def Place.Valid (p : Place) : Prop := ∃ raw, P.airportCode raw = some p.iataCode

def Carrier.Valid (c : Carrier) : Prop := ∃ raw, P.carrierCode raw = some c.iataCode

structure Segment.Valid (s : Segment) : Prop where
  origin : s.origin.Valid P
  destination : s.destination.Valid P
  marketingCarrier : s.marketingCarrier.Valid P
  operatingCarrier : ∀ c, s.operatingCarrier = some c → c.Valid P

structure Slice.Valid (s : Slice) : Prop where
  origin : s.origin.Valid P
  destination : s.destination.Valid P
  nonempty : s.segments ≠ []
  segments : ∀ seg ∈ s.segments, seg.Valid P

structure Offer.Valid (o : Offer) : Prop where
  owner : o.owner.Valid P
  total : o.total.Valid P
  nonempty : o.slices ≠ []
  slices : ∀ s ∈ o.slices, s.Valid P

/-! ### The round trip -/

section RoundTrip

variable {P T} (hP : P.Lawful T)
include hP

/-- A validator leaves a code alone that it has been through. -/
theorem Pydantic.Lawful.code_code {n : ℕ} {ok : Char → Bool} {raw code : String}
    (hok : ∀ c, ok c = true → P.isSpace c = false) (h : P.code n ok raw = some code) :
    P.code n ok code = some code := by
  obtain ⟨⟨hlen, hall⟩, rfl⟩ : ((P.stripUpper raw).length = n ∧ (P.stripUpper raw).all ok) ∧
      String.ofList (P.stripUpper raw) = code := by
    simpa [Pydantic.code] using h
  -- the characters of the code are no spaces, and in upper case already
  have hspace : ∀ c ∈ P.stripUpper raw, ¬ P.isSpace c = true := by
    intro c hc
    rw [hok c (List.all_eq_true.mp hall c hc)]
    exact Bool.false_ne_true
  have hleft : (P.stripUpper raw).dropWhile P.isSpace = P.stripUpper raw :=
    List.dropWhile_eq_self_iff.mpr fun _ => hspace _ (List.getElem_mem _)
  have hright : (P.stripUpper raw).rdropWhile P.isSpace = P.stripUpper raw :=
    List.rdropWhile_eq_self_iff.mpr fun _ => hspace _ (List.getLast_mem _)
  have hupper : (P.stripUpper raw).flatMap P.upper = P.stripUpper raw := by
    rw [Pydantic.stripUpper, List.flatMap_assoc]
    exact List.flatMap_congr fun c _ => hP.upper_upper c
  have hagain : P.stripUpper (String.ofList (P.stripUpper raw)) = P.stripUpper raw := by
    rw [Pydantic.stripUpper, String.toList_ofList, hleft, hright, hupper]
  rw [Pydantic.code, hagain]
  exact if_pos ⟨hlen, hall⟩

theorem Money.modelValidate_json {m : Money} (h : m.Valid P) :
    Money.modelValidate P m.json = some m.stored := by
  obtain ⟨raw, hraw⟩ := h
  have hcurrency : P.currencyIso4217 m.currency = some m.currency :=
    hP.code_code hP.alpha_not_space hraw
  have hamount := hP.decimal (m.amount.quantize 2) rfl
  simp [Money.modelValidate, Money.json, Dict.only, required, Decimal.format, hamount,
    Money.create, hcurrency, Money.stored]

theorem Place.modelValidate_json {p : Place} (h : p.Valid P) :
    Place.modelValidate P p.json = some p := by
  obtain ⟨raw, hraw⟩ := h
  have hcode : P.airportCode p.iataCode = some p.iataCode :=
    hP.code_code hP.alpha_not_space hraw
  simp [Place.modelValidate, Place.json, Dict.only, Dict.orNull, defaulted,
    Decoder.enum, Place.create, hcode]

theorem Carrier.modelValidate_json {c : Carrier} (h : c.Valid P) :
    Carrier.modelValidate P c.json = some c := by
  obtain ⟨raw, hraw⟩ := h
  have hcode : P.carrierCode c.iataCode = some c.iataCode :=
    hP.code_code hP.alnum_not_space hraw
  simp [Carrier.modelValidate, Carrier.json, Dict.only, required, defaulted,
    Carrier.create, hcode]

theorem Pydantic.Lawful.nullable_duration (d : Option TimeDelta) :
    Decoder.nullable P.readDuration (Json.nullable (fun d => .str (T.duration d)) d) = some d :=
  Decoder.nullable_nullable fun d _ => ⟨hP.duration d, nofun⟩

theorem Pydantic.Lawful.nullable_dateTime (t : Option DateTime) :
    Decoder.nullable P.readDateTime (Json.nullable (fun t => .str (T.dateTime t)) t) = some t :=
  Decoder.nullable_nullable fun t _ => ⟨hP.dateTime t, nofun⟩

omit hP in
theorem nullable_cabinClass (c : Option CabinClass) :
    Decoder.nullable (Decoder.enum CabinClass.ofValue)
      (Json.nullable (fun c => .str c.value) c) = some c :=
  Decoder.nullable_nullable fun c _ => ⟨by simp [Decoder.enum], nofun⟩

theorem Segment.modelValidate_json {s : Segment} (h : s.Valid P) :
    Segment.modelValidate P (s.json T) = some s := by
  have horigin := Place.modelValidate_json hP h.origin
  have hdestination := Place.modelValidate_json hP h.destination
  have hmarketing := Carrier.modelValidate_json hP h.marketingCarrier
  have hoperating : Decoder.nullable (Carrier.modelValidate P)
      (Json.nullable Carrier.json s.operatingCarrier) = some s.operatingCarrier :=
    Decoder.nullable_nullable fun c hc =>
      ⟨Carrier.modelValidate_json hP (h.operatingCarrier c hc), nofun⟩
  rw [Segment.modelValidate, Segment.json, Decoder.model_obj, if_pos]
  · simp [Dict.orNull, required, defaulted, horigin, hdestination, hP.dateTime, hmarketing,
      hoperating, nullable_cabinClass, Segment.create, hP.nullable_duration]
  · rfl

theorem Slice.modelValidate_json {s : Slice} (h : s.Valid P) :
    Slice.modelValidate P (s.json T) = some s := by
  have horigin := Place.modelValidate_json hP h.origin
  have hdestination := Place.modelValidate_json hP h.destination
  have hsegments : Decoder.list (Segment.modelValidate P)
      (Json.list (Segment.json T) s.segments) = some s.segments :=
    Decoder.list_list_self fun seg hseg => Segment.modelValidate_json hP (h.segments seg hseg)
  simp [Slice.modelValidate, Slice.json, Dict.orNull, required, horigin, hdestination, hsegments,
    Slice.create, hP.nullable_duration, h.nonempty]

/-- The slices of a model are read back. -/
theorem slices_modelValidate {slices : List Slice} (h : ∀ s ∈ slices, s.Valid P) :
    Decoder.list (Slice.modelValidate P) (Json.list (Slice.json T) slices) = some slices :=
  Decoder.list_list_self fun s hs => Slice.modelValidate_json hP (h s hs)

/-- **An offer is read back from its JSON, its total rounded.** -/
theorem Offer.modelValidate_json {o : Offer} (h : o.Valid P) :
    Offer.modelValidate P (o.json T) = some { o with total := o.total.stored } := by
  have howner := Carrier.modelValidate_json hP h.owner
  have htotal := Money.modelValidate_json hP h.total
  have hslices := slices_modelValidate hP h.slices
  have htypes : Decoder.list (Decoder.enum PassengerType.ofValue)
      (Json.list (fun t => .str t.value) o.passengerTypes) = some o.passengerTypes :=
    Decoder.list_list_self fun t _ => by simp [Decoder.enum]
  simp [Offer.modelValidate, Offer.json, required, defaulted, Decoder.enum, howner, htotal,
    hslices, htypes, nullable_cabinClass, hP.nullable_dateTime, Offer.create, h.nonempty]

theorem Pydantic.Lawful.date_injective : Function.Injective T.date := by
  intro a b hab
  exact Option.some.inj (by rw [← hP.date a, hab, hP.date])

theorem SearchCriteria.json_injective : Function.Injective (SearchCriteria.json T) := by
  rintro ⟨origin, destination, departureDate, returnDate, cabinClass, passengers, n⟩
    ⟨origin', destination', departureDate', returnDate', cabinClass', passengers', n'⟩ h
  simp only [SearchCriteria.json, Json.obj.injEq, List.cons.injEq, Prod.mk.injEq, Json.str.injEq,
    true_and, and_true] at h
  obtain ⟨rfl, rfl, hdeparture, hreturn, hcabin, hpassengers, hn⟩ := h
  have hdate : Function.Injective fun d => Json.str (T.date d) :=
    fun _ _ hab => hP.date_injective (Json.str.inj hab)
  obtain rfl := hP.date_injective hdeparture
  obtain rfl := Json.nullable_injective hdate nofun hreturn
  obtain rfl := CabinClass.value_injective hcabin
  obtain rfl := Json.list_injective PassengerSpec.json_injective hpassengers
  obtain rfl := Json.int_injective hn
  rfl

/-- **Criteria of the same text are equal.** -/
theorem SearchCriteria.modelDumpJson_injective :
    Function.Injective (SearchCriteria.modelDumpJson T) := by
  intro c c' h
  exact SearchCriteria.json_injective hP (Json.write_inj c.plain_json c'.plain_json h)

end RoundTrip

/-! ### A sample -/

namespace Sample

/-- Numbers as one string. -/
def numbersText (xs : List ℤ) : String := String.ofList (jsonDumps (.list .int xs))

def readNumbers : Json → Option (List ℤ)
  | .str s => (jsonLoads s.toList).bind (Decoder.list pydantic.readInt)
  | _ => none

/-- Eight o'clock in the morning of 15 August 2026, in UTC. -/
def bookedAt : DateTime := ⟨63922377600000000, some 0⟩

/-- Four o'clock in the afternoon of that day. -/
def landedAt : DateTime := ⟨63922406400000000, some 0⟩

/-- 15 August 2026. -/
def departureDay : Date := ⟨739843⟩

/-- The texts of `bookedAt`, `landedAt` and `departureDay`, and some text for
everything else. -/
def iso : IsoText where
  dateTime t :=
    if t = bookedAt then "2026-08-15T08:00:00Z"
    else if t = landedAt then "2026-08-15T16:00:00Z"
    else numbersText (t.micros :: t.utcOffset.toList)
  date d := if d = departureDay then "2026-08-15" else numbersText [d.ordinal]
  duration d := numbersText [d.micros]

/-- Reads what `iso` writes. -/
def isoPydantic : Pydantic :=
  { pydantic with
    readDateTime := fun v =>
      match v with
      | .str "2026-08-15T08:00:00Z" => some bookedAt
      | .str "2026-08-15T16:00:00Z" => some landedAt
      | v => (readNumbers v).bind fun
        | [micros] => some ⟨micros, none⟩
        | [micros, offset] => some ⟨micros, some offset⟩
        | _ => none
    readDate := fun v =>
      match v with
      | .str "2026-08-15" => some departureDay
      | v => (readNumbers v).bind fun
        | [ordinal] => some ⟨ordinal.toNat⟩
        | _ => none
    readDuration := fun v => (readNumbers v).bind fun
      | [micros] => some ⟨micros⟩
      | _ => none }

theorem readInt_int (n : ℤ) : pydantic.readInt (.int n) = some n := by
  show (if (0 : ℤ) = 0 then some _ else none) = _
  rw [if_pos rfl]
  rcases lt_or_ge n 0 with h | h
  · simp [h, abs_of_neg h]
  · simp [not_lt.mpr h, h]

theorem readNumbers_numbersText (xs : List ℤ) :
    readNumbers (.str (numbersText xs)) = some xs := by
  have hplain : (Json.list .int xs).Plain := Json.plain_list fun n _ => Json.plain_int n
  rw [readNumbers, numbersText, String.toList_ofList, jsonLoads_jsonDumps hplain, Option.bind_some]
  exact Decoder.list_list_self fun n _ => readInt_int n

theorem toUpper_toUpper (c : Char) : c.toUpper.toUpper = c.toUpper := by
  by_cases h : 'a'.val ≤ c.val ∧ c.val ≤ 'z'.val
  · have hu : c.toUpper.val = c.val + ('A'.val - 'a'.val) := by
      delta Char.toUpper
      rw [dif_pos h]
    have hno : ¬ ('a'.val ≤ c.toUpper.val ∧ c.toUpper.val ≤ 'z'.val) := by
      rw [hu]
      simp only [UInt32.le_iff_toNat_le] at *
      rintro ⟨h1, h2⟩
      rw [UInt32.toNat_add] at *
      have hdiff : ('A'.val - 'a'.val).toNat = 4294967264 := by decide
      have ha : 'a'.val.toNat = 97 := rfl
      have hz : 'z'.val.toNat = 122 := rfl
      omega
    exact dif_neg hno
  · have hu : c.toUpper = c := by
      delta Char.toUpper
      exact dif_neg h
    rw [hu, hu]

theorem not_space (c : Char) (h : c.isAlphanum = true) : c.isWhitespace = false := by
  rw [Bool.eq_false_iff]
  intro hs
  simp only [Char.isWhitespace, Bool.or_eq_true, decide_eq_true_eq] at hs
  rcases hs with ((rfl | rfl) | rfl) | rfl <;> cases h

theorem numbersText_ne (xs : List ℤ) {s : String} (hs : s.toList.head? = some '2') :
    numbersText xs ≠ s := by
  rintro rfl
  rw [numbersText, String.toList_ofList] at hs
  exact absurd (Option.some.inj hs) (by decide)

theorem readDateTime_dateTime (t : DateTime) :
    isoPydantic.readDateTime (.str (iso.dateTime t)) = some t := by
  by_cases hb : t = bookedAt
  · subst hb
    rfl
  by_cases hl : t = landedAt
  · subst hl
    rfl
  have htext : iso.dateTime t = numbersText (t.micros :: t.utcOffset.toList) :=
    (if_neg hb).trans (if_neg hl)
  rw [htext, isoPydantic]
  simp only
  split
  · rename_i heq
    exact absurd (Json.str.inj heq) (numbersText_ne _ rfl)
  · rename_i heq
    exact absurd (Json.str.inj heq) (numbersText_ne _ rfl)
  · rw [readNumbers_numbersText]
    obtain ⟨micros, - | offset⟩ := t <;> rfl

theorem readDate_date (d : Date) : isoPydantic.readDate (.str (iso.date d)) = some d := by
  by_cases hd : d = departureDay
  · subst hd
    rfl
  have htext : iso.date d = numbersText [(d.ordinal : ℤ)] := if_neg hd
  rw [htext, isoPydantic]
  simp only
  split
  · rename_i heq
    exact absurd (Json.str.inj heq) (numbersText_ne _ rfl)
  · rw [readNumbers_numbersText]
    rfl

theorem readDuration_duration (d : TimeDelta) :
    isoPydantic.readDuration (.str (iso.duration d)) = some d := by
  have htext : iso.duration d = numbersText [d.micros] := rfl
  rw [htext, isoPydantic]
  simp only
  rw [readNumbers_numbersText]
  rfl

theorem isoPydantic_lawful : isoPydantic.Lawful iso where
  upper_upper c := by
    show [c.toUpper.toUpper] = [c.toUpper]
    rw [toUpper_toUpper]
  alpha_not_space c h := not_space c (by
    rw [Char.isAlphanum, show c.isAlpha = true from h, Bool.true_or])
  alnum_not_space := not_space
  decimal d h := by
    show Decimal.parse (String.ofList _).toList = _
    rw [String.toList_ofList, Decimal.parse_fixedText h]
  dateTime := readDateTime_dateTime
  date := readDate_date
  duration := readDuration_duration

def place (code : String) : Place where
  iataCode := code
  name := none
  cityName := none
  type := .airport

/-- A direct flight, for an amount of money. -/
def fare (total : Money) : Offer where
  id := "off_1"
  provider := .duffel
  owner := { iataCode := "BA", name := none }
  total := total
  slices := [{
    id := "sli_1", origin := place "LHR", destination := place "JFK", duration := none
    segments := [{
      id := "seg_1", origin := place "LHR", destination := place "JFK"
      departingAt := bookedAt, arrivingAt := landedAt
      marketingCarrier := { iataCode := "BA", name := none }, operatingCarrier := none
      flightNumber := "117", aircraft := none, cabinClass := none, duration := none }] }]
  passengerTypes := [.adult]
  cabinClass := none
  expiresAt := none

theorem valid_fare {total : Money} (h : total.Valid isoPydantic) :
    (fare total).Valid isoPydantic := by
  have hplace : ∀ code, isoPydantic.airportCode code = some code →
      (place code).Valid isoPydantic := fun code h => ⟨code, h⟩
  have hcarrier : Carrier.Valid isoPydantic { iataCode := "BA", name := none } :=
    ⟨"BA", by decide⟩
  have hlhr := hplace "LHR" (by decide)
  have hjfk := hplace "JFK" (by decide)
  refine ⟨hcarrier, h, List.cons_ne_nil _ _, fun s hs => ?_⟩
  obtain rfl := List.mem_singleton.mp hs
  refine ⟨hlhr, hjfk, List.cons_ne_nil _ _, fun seg hseg => ?_⟩
  obtain rfl := List.mem_singleton.mp hseg
  exact ⟨hlhr, hjfk, hcarrier, nofun⟩

end Sample

end FlyDesk
