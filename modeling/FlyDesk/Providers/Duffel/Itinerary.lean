/-
FlyDesk/Providers/Duffel/Itinerary.lean

The mapper of Duffel as a relation.  `OfferMaps` and `OrderMaps` say field by field what
a raw payload and its model have to do with each other; the mapper returns a model just
if they are so related, and that model (`mapOffer_iff`, `mapOrder_iff`).  Nothing is
dropped and nothing is reordered on the way: slices and segments correspond one to one.

A flight number keeps the raw code of its carrier, while the carrier itself has the code
that is validated.
-/
import FlyDesk.Domain.Serialization
import FlyDesk.Providers.Duffel.Mapper

namespace FlyDesk

open Lib

namespace Duffel

variable (P : Pydantic)

/-! ### Raw payloads and their models -/

/-- A duration, as text and as it is read. -/
abbrev DurationMaps : Option String → Option TimeDelta → Prop :=
  Option.Rel fun s d => P.readDuration (.str s) = some d

structure PlaceMaps (p : DuffelPlace) (x : Place) : Prop where
  iataCode : ∃ raw, p.iataCode = some raw ∧ P.airportCode raw = some x.iataCode
  name : x.name = p.name
  cityName : x.cityName = p.cityName
  type : NamedOr PlaceType.value .airport p.type x.type

structure CarrierMaps (c : DuffelCarrier) (x : Carrier) : Prop where
  iataCode : P.carrierCode c.iataCode = some x.iataCode
  name : x.name = c.name

structure SegmentMaps (s : DuffelSegment) (x : Segment) : Prop where
  id : x.id = s.id
  origin : PlaceMaps P s.origin x.origin
  destination : PlaceMaps P s.destination x.destination
  departingAt : x.departingAt = s.departingAt
  arrivingAt : x.arrivingAt = s.arrivingAt
  marketingCarrier : CarrierMaps P s.marketingCarrier x.marketingCarrier
  operatingCarrier : Option.Rel (CarrierMaps P) s.operatingCarrier x.operatingCarrier
  flightNumber : x.flightNumber = s.marketingCarrier.iataCode ++ s.marketingCarrierFlightNumber
  aircraft : x.aircraft = s.aircraft.bind DuffelAircraft.name
  cabinClass : NamedBy CabinClass.value (s.passengers.head?.bind fun p => p.cabinClass)
    x.cabinClass
  duration : DurationMaps P s.duration x.duration

structure SliceMaps (sl : DuffelSlice) (x : Slice) : Prop where
  id : x.id = sl.id
  origin : PlaceMaps P sl.origin x.origin
  destination : PlaceMaps P sl.destination x.destination
  duration : DurationMaps P sl.duration x.duration
  segments : List.Forall₂ (SegmentMaps P) sl.segments x.segments
  nonempty : sl.segments ≠ []

/-- An amount is taken over as it is; its currency is validated. -/
structure TotalMaps (amount : Decimal) (currency : String) (x : Money) : Prop where
  amount : x.amount = amount
  currency : P.currencyIso4217 currency = some x.currency

structure OfferMaps (o : DuffelOffer) (x : Offer) : Prop where
  id : x.id = o.id
  provider : x.provider = .duffel
  owner : CarrierMaps P o.owner x.owner
  total : TotalMaps P o.totalAmount o.totalCurrency x.total
  slices : List.Forall₂ (SliceMaps P) o.slices x.slices
  nonempty : o.slices ≠ []
  passengerTypes : List.Forall₂ (fun p t => NamedOr PassengerType.value .adult p.type t)
    o.passengers x.passengerTypes
  cabinClass : NamedBy CabinClass.value
    ((o.slices.head?.bind fun sl => sl.segments.head?).bind fun s =>
      s.passengers.head?.bind fun p => p.cabinClass) x.cabinClass
  expiresAt : x.expiresAt = o.expiresAt

/-- The order of a payload, made out at `now` with our own copy of the passengers: it is
confirmed, its history has the one entry that it was created, and nothing waits in its
outbox. -/
structure OrderMaps (data : DuffelOrderData) (passengers : List BookingPassenger)
    (now : DuffelProvider.OrderClock) (x : Order) : Prop where
  id : x.id = data.id
  provider : x.provider = .duffel
  providerOrderId : x.providerOrderId = data.id
  bookingReference : x.bookingReference = data.bookingReference
  status : x.status = .confirmed
  total : TotalMaps P data.totalAmount data.totalCurrency x.total
  slices : List.Forall₂ (SliceMaps P) data.slices x.slices
  passengers : x.passengers = passengers
  idempotencyKey : x.idempotencyKey = none
  createdAt : x.createdAt = now.createdAt
  events : x.events = [{
    type := "order.created"
    occurredAt := now.occurredAt
    detail := some ("Duffel order " ++ data.id ++ " (PNR " ++
      data.bookingReference.getD "None" ++ ")") }]
  outbox : x.outbox = []

variable {P}

/-! ### The mapper -/

theorem placeType_iff {value : Option String} {t : PlaceType} :
    t = placeType value ↔ NamedOr PlaceType.value .airport value t :=
  (namedOr_iff PlaceType.ofValue_eq_some).symm

theorem passengerType_iff {value : Option String} {t : PassengerType} :
    t = passengerType value ↔ NamedOr PassengerType.value .adult value t :=
  (namedOr_iff PassengerType.ofValue_eq_some).symm

theorem passengerTypes_iff {ps : List DuffelOfferPassenger} {ts : List PassengerType} :
    ts = ps.map (fun p => passengerType p.type) ↔
      List.Forall₂ (fun p t => NamedOr PassengerType.value .adult p.type t) ps ts := by
  refine Iff.symm (forall₂_iff_eq_map fun p t => ?_)
  exact passengerType_iff.symm

theorem cabin_iff {ps : List DuffelSegmentPassenger} {c : Option CabinClass} :
    c = (ps.head?.bind fun p => cabin p.cabinClass) ↔
      NamedBy CabinClass.value (ps.head?.bind fun p => p.cabinClass) c := by
  rw [namedBy_iff CabinClass.ofValue_eq_some, Option.bind_assoc]
  rfl

/-- The cabin of an offer, by its first segment. -/
theorem firstCabin_iff {seg : Option DuffelSegment} {c : Option CabinClass} :
    c = (seg.bind fun s => s.passengers.head?.bind fun p => cabin p.cabinClass) ↔
      NamedBy CabinClass.value
        (seg.bind fun s => s.passengers.head?.bind fun p => p.cabinClass) c := by
  cases seg with
  | none => exact @cabin_iff [] c
  | some s => exact @cabin_iff s.passengers c

theorem nullable_ofOption {α : Type} {dec : Decoder α} {o : Option String} {x : Option α} :
    Decoder.nullable dec (.ofOption o) = some x ↔
      Option.Rel (fun s a => dec (.str s) = some a) o x := by
  cases o <;> cases x <;> simp [Json.ofOption, Decoder.nullable]

theorem nullable_str {o : Option String} :
    Decoder.nullable Decoder.str (.ofOption o) = some o := by
  cases o <;> rfl

theorem place_iff {p : DuffelPlace} {x : Place} : place P p = .ok x ↔ PlaceMaps P p x := by
  have hcreate : place P p = .ok x ↔ (∃ code,
      (Decoder.str (.ofOption p.iataCode)).bind P.airportCode = some code ∧
        (⟨code, p.name, p.cityName, placeType p.type⟩ : Place) = x) := by
    simp [place, validated_eq_ok, Place.create, nullable_str, Option.bind_eq_some_iff]
  rw [hcreate]
  constructor
  · rintro ⟨code, hcode, rfl⟩
    obtain ⟨raw, hraw, hcode⟩ := Option.bind_eq_some_iff.mp hcode
    refine ⟨⟨raw, ?_, hcode⟩, rfl, rfl, placeType_iff.mp rfl⟩
    cases h : p.iataCode with
    | none => simp [h, Json.ofOption, Decoder.str] at hraw
    | some value => simpa [h, Json.ofOption] using hraw
  · rintro ⟨⟨raw, hraw, hcode⟩, hname, hcity, htype⟩
    obtain ⟨iataCode, name, cityName, type⟩ := x
    obtain rfl := hname
    obtain rfl := hcity
    obtain rfl := placeType_iff.mpr htype
    exact ⟨iataCode, by simpa [hraw, Json.ofOption] using hcode, rfl⟩

theorem carrier_iff {c : DuffelCarrier} {x : Carrier} :
    carrier P c = .ok x ↔ CarrierMaps P c x := by
  rw [carrier, validated_eq_ok]
  constructor
  · intro h
    obtain ⟨code, hcode, h⟩ := Option.bind_eq_some_iff.mp h
    obtain rfl := Option.some.inj h
    exact ⟨hcode, rfl⟩
  · rintro ⟨hcode, hname⟩
    exact Option.bind_eq_some_iff.mpr ⟨_, hcode, by rw [← hname]⟩

theorem carrier?_iff {c : Option DuffelCarrier} {x : Option Carrier} :
    carrier? P c = .ok x ↔ Option.Rel (CarrierMaps P) c x := by
  cases c with
  | none => cases x <;> simp [carrier?]
  | some c =>
      cases x with
      | none => cases h : carrier P c <;> simp [carrier?, h, Except.map]
      | some x =>
          rw [Option.rel_some_some, ← carrier_iff]
          cases h : carrier P c <;> simp [carrier?, h, Except.map]

theorem segment_iff {s : DuffelSegment} {x : Segment} :
    segment P s = .ok x ↔ SegmentMaps P s x := by
  constructor
  · intro h
    obtain ⟨origin, ho, h⟩ := bind_eq_ok.mp h
    obtain ⟨destination, hd, h⟩ := bind_eq_ok.mp h
    obtain ⟨marketing, hm, h⟩ := bind_eq_ok.mp h
    obtain ⟨operating, hop, h⟩ := bind_eq_ok.mp h
    obtain ⟨duration, hduration, h⟩ := Option.bind_eq_some_iff.mp (validated_eq_ok.mp h)
    obtain rfl := Option.some.inj h
    exact
      { id := rfl
        origin := place_iff.mp ho
        destination := place_iff.mp hd
        departingAt := rfl
        arrivingAt := rfl
        marketingCarrier := carrier_iff.mp hm
        operatingCarrier := carrier?_iff.mp hop
        flightNumber := rfl
        aircraft := rfl
        cabinClass := cabin_iff.mp rfl
        duration := nullable_ofOption.mp hduration }
  · rintro ⟨hid, horigin, hdestination, hdeparting, harriving, hmarketing, hoperating, hnumber,
      haircraft, hcabin, hduration⟩
    refine bind_eq_ok.mpr ⟨_, place_iff.mpr horigin, ?_⟩
    refine bind_eq_ok.mpr ⟨_, place_iff.mpr hdestination, ?_⟩
    refine bind_eq_ok.mpr ⟨_, carrier_iff.mpr hmarketing, ?_⟩
    refine bind_eq_ok.mpr ⟨_, carrier?_iff.mpr hoperating, ?_⟩
    refine validated_eq_ok.mpr (Option.bind_eq_some_iff.mpr
      ⟨_, nullable_ofOption.mpr hduration, ?_⟩)
    rw [← hid, ← hdeparting, ← harriving, ← hnumber, ← haircraft, ← cabin_iff.mpr hcabin]

theorem slice_iff {sl : DuffelSlice} {x : Slice} : slice P sl = .ok x ↔ SliceMaps P sl x := by
  constructor
  · intro h
    obtain ⟨origin, ho, h⟩ := bind_eq_ok.mp h
    obtain ⟨destination, hd, h⟩ := bind_eq_ok.mp h
    obtain ⟨segments, hs, h⟩ := bind_eq_ok.mp h
    obtain ⟨duration, hduration, h⟩ := Option.bind_eq_some_iff.mp (validated_eq_ok.mp h)
    obtain ⟨hne, h⟩ := Option.ite_none_left_eq_some.mp h
    obtain rfl := Option.some.inj h
    exact
      { id := rfl
        origin := place_iff.mp ho
        destination := place_iff.mp hd
        duration := nullable_ofOption.mp hduration
        segments := (forall₂_of_mapM hs).imp fun _ _ => segment_iff.mp
        nonempty := (mapM_eq_nil hs).not.mp hne }
  · rintro ⟨hid, horigin, hdestination, hduration, hsegments, hne⟩
    have hs : sl.segments.mapM (segment P) = .ok x.segments :=
      mapM_eq_ok_iff.mpr (hsegments.imp fun _ _ => segment_iff.mpr)
    refine bind_eq_ok.mpr ⟨_, place_iff.mpr horigin, ?_⟩
    refine bind_eq_ok.mpr ⟨_, place_iff.mpr hdestination, ?_⟩
    refine bind_eq_ok.mpr ⟨_, hs, ?_⟩
    refine validated_eq_ok.mpr (Option.bind_eq_some_iff.mpr
      ⟨_, nullable_ofOption.mpr hduration, ?_⟩)
    rw [if_neg ((mapM_eq_nil hs).not.mpr hne), ← hid]

theorem slices_iff {sls : List DuffelSlice} {xs : List Slice} :
    sls.mapM (slice P) = .ok xs ↔ List.Forall₂ (SliceMaps P) sls xs := by
  simp only [mapM_eq_ok_iff, slice_iff]

theorem total_iff {amount : Decimal} {currency : String} {x : Money} :
    validated (Money.create P amount currency) = .ok x ↔ TotalMaps P amount currency x := by
  rw [validated_eq_ok]
  constructor
  · intro h
    obtain ⟨code, hcode, h⟩ := Option.bind_eq_some_iff.mp h
    obtain rfl := Option.some.inj h
    exact ⟨rfl, hcode⟩
  · rintro ⟨hamount, hcode⟩
    exact Option.bind_eq_some_iff.mpr ⟨_, hcode, by rw [← hamount]⟩

/-- **The mapper of offers, as a relation.** -/
theorem mapOffer_iff {o : DuffelOffer} {x : Offer} : mapOffer P o = .ok x ↔ OfferMaps P o x := by
  constructor
  · intro h
    obtain ⟨owner, howner, h⟩ := bind_eq_ok.mp h
    obtain ⟨total, htotal, h⟩ := bind_eq_ok.mp h
    obtain ⟨slices, hs, h⟩ := bind_eq_ok.mp h
    obtain ⟨hne, h⟩ := Option.ite_none_left_eq_some.mp (validated_eq_ok.mp h)
    obtain rfl := Option.some.inj h
    exact
      { id := rfl
        provider := rfl
        owner := carrier_iff.mp howner
        total := total_iff.mp htotal
        slices := slices_iff.mp hs
        nonempty := (mapM_eq_nil hs).not.mp hne
        passengerTypes := passengerTypes_iff.mp rfl
        cabinClass := firstCabin_iff.mp rfl
        expiresAt := rfl }
  · rintro ⟨hid, hprovider, howner, htotal, hslices, hne, htypes, hcabin, hexpires⟩
    have hs := slices_iff.mpr hslices
    refine bind_eq_ok.mpr ⟨_, carrier_iff.mpr howner, ?_⟩
    refine bind_eq_ok.mpr ⟨_, total_iff.mpr htotal, ?_⟩
    refine bind_eq_ok.mpr ⟨_, hs, validated_eq_ok.mpr ?_⟩
    rw [Offer.create, if_neg ((mapM_eq_nil hs).not.mpr hne), ← hid, ← hprovider,
      ← passengerTypes_iff.mpr htypes, ← firstCabin_iff.mpr hcabin, ← hexpires]

/-- **The mapper of orders, as a relation.** -/
theorem mapOrder_iff {data : DuffelOrderData} {passengers : List BookingPassenger}
    {now : DuffelProvider.OrderClock} {x : Order} :
    mapOrder P data passengers now = .ok x ↔ OrderMaps P data passengers now x := by
  constructor
  · intro h
    obtain ⟨total, htotal, h⟩ := bind_eq_ok.mp h
    obtain ⟨slices, hs, h⟩ := bind_eq_ok.mp h
    obtain rfl := Except.ok.inj h
    exact
      { id := rfl
        provider := rfl
        providerOrderId := rfl
        bookingReference := rfl
        status := rfl
        total := total_iff.mp htotal
        slices := slices_iff.mp hs
        passengers := rfl
        idempotencyKey := rfl
        createdAt := rfl
        events := rfl
        outbox := rfl }
  · rintro ⟨hid, hprovider, hprovid, href, hstatus, htotal, hslices, hpassengers, hkey, hcreated,
      hevents, houtbox⟩
    refine bind_eq_ok.mpr ⟨_, total_iff.mpr htotal, bind_eq_ok.mpr ⟨_, slices_iff.mpr hslices, ?_⟩⟩
    rw [DuffelProvider.mapOrder, ← hevents, ← hprovider, ← href, ← hstatus, ← hpassengers,
      ← hkey, ← hcreated, ← houtbox]
    nth_rewrite 1 [← hid]
    rw [← hprovid]

end Duffel

end FlyDesk
